import OakKeyring.Executor.Export
import OakKeyring.Lib.Logged
import OakKeyring.Samples.Transfer
import OakKeyring.Vault.Commands

/-!
# What an export writes

An export writes every live record of the vault. Its scope reaches the session and the audit
entry and nothing else.
-/

namespace OakKeyring

open Effect Transfer

/-! ## Scopes -/

/-- The records that are not in the trash. -/
def Tables.live (t : Tables) : List StoredRecord :=
  t.storedRecords.filter fun stored => !stored.deleted

section Scopes

variable [Crypto] [Unicode] (v : VaultService) (t : Tables)

/-- What the current list shows (`record_list_where_clause`); a search looks at the decrypted name
and subtitle. -/
def RecordFilter.shows (filter : RecordFilter) (stored : StoredRecord) : Bool :=
  match filter with
  | All => !stored.deleted
  | Favorites => !stored.deleted && stored.isFavorite
  | Tag name => !stored.deleted && stored.tags.contains name
  | Trash => stored.deleted
  | Expired =>
      !stored.deleted && (t.healthState.lookup stored.id).any fun row => row.expired == some true
  | HealthIssues =>
      !stored.deleted && (t.healthState.lookup stored.id).any fun row =>
        row.weakPassword == some true || row.compromised == some true ||
          row.expired == some true || row.duplicateGroupSize.isSome
  | Search query =>
      !stored.deleted &&
        match Vault.recordNameOf v stored, Vault.subtitleOf v stored with
        | .ok name, .ok subtitle =>
            trim query == "" || matchesTerms (splitWhitespace query) name subtitle
        | _, _ => false

def ExportScope.admits (scope : ExportScope) (stored : StoredRecord) : Bool :=
  match scope with
  | All => true
  | CurrentFilter filter => filter.shows v t stored
  | ByTag name => stored.tags.contains name

/-- The live records of a scope, by their ids. -/
def ExportScope.ids (scope : ExportScope) : List String :=
  (t.live.filter (scope.admits v t)).map fun stored => stored.id.toText

end Scopes

/-! ## Files -/

section Files

variable [Crypto] [Argon2] [ExportFormats]

/-- A backup, opened with its password. -/
def okbPayload (password : String) (bytes : Bytes) : Except String ExportPayload := do
  let salt ← KeyStore.saltOf ((bytes.drop 4).take 16)
  let nonce ← KeyStore.nonceOf ((bytes.drop 20).take 24)
  let dek ← argon2id (utf8 password) salt .medium
  let json ← Crypto.aeadDecrypt (bytes.drop 44) nonce [] dek
  payloadFromSlice json

/-- The ids of the records in an export file. -/
def exportedIds (format : ExportFormat) (password : String) (bytes : Bytes) :
    Except String (List String) :=
  match format with
  | .Okb => do
      let payload ← okbPayload password bytes
      return payload.records.map ExportRecord.id
  | .Csv => do
      let rows ← readRows (bytes.drop 3)
      return rows.tail.map fun row => row.headD ""

theorem exportedIds_okb [LawfulCrypto] [LawfulExportFormats] {payload : ExportPayload}
    {password : String} {json dek ciphertext : Bytes} {salt : Salt} {nonce : Nonce}
    (hjson : payloadToVec payload = .ok json)
    (hdek : argon2id (utf8 password) salt .medium = .ok dek)
    (hcipher : Crypto.aeadEncrypt json [] dek nonce = .ok ciphertext) :
    exportedIds .Okb password (okbBytes salt nonce ciphertext) =
      .ok (payload.records.map ExportRecord.id) := by
  -- the header of the file gives the salt and the nonce back
  have hsalt : ((okbBytes salt nonce ciphertext).drop 4).take 16 = salt.bytes := by
    have hdrop : (okbBytes salt nonce ciphertext).drop 4 =
        salt.bytes ++ (nonce.bytes ++ ciphertext) := by
      simp [okbBytes, OKB_VERSION]
    rw [hdrop]
    exact List.take_left' salt.length_bytes
  have hrest : (okbBytes salt nonce ciphertext).drop 20 = nonce.bytes ++ ciphertext := by
    have hsplit : okbBytes salt nonce ciphertext =
        (OKB_VERSION ++ salt.bytes) ++ (nonce.bytes ++ ciphertext) := by
      simp [okbBytes]
    rw [hsplit]
    exact List.drop_left' (by simp [OKB_VERSION, salt.length_bytes])
  have hnonce : ((okbBytes salt nonce ciphertext).drop 20).take 24 = nonce.bytes := by
    rw [hrest]
    exact List.take_left' nonce.length_bytes
  have htail : (okbBytes salt nonce ciphertext).drop 44 = ciphertext := by
    have hlength : (OKB_VERSION ++ salt.bytes ++ nonce.bytes).length = 44 := by
      simp [OKB_VERSION, salt.length_bytes, nonce.length_bytes]
    exact List.drop_left' hlength
  -- with them the ciphertext decrypts to what was encrypted
  have hopen : okbPayload password (okbBytes salt nonce ciphertext) = .ok payload := by
    have hsaltOf : KeyStore.saltOf salt.bytes = .ok salt := dif_pos salt.length_bytes
    have hnonceOf : KeyStore.nonceOf nonce.bytes = .ok nonce := dif_pos nonce.length_bytes
    have hplain : Crypto.aeadDecrypt ciphertext nonce [] dek = .ok json :=
      LawfulCrypto.decrypt_encrypt hcipher
    have hread := LawfulExportFormats.payloadFromSlice_payloadToVec hjson
    unfold okbPayload
    rw [hsalt, hnonce, htail, hsaltOf, hnonceOf]
    simp [hdek, hplain, hread, bind, Except.bind]
  unfold exportedIds
  simp [hopen, bind, Except.bind, pure, Except.pure]

theorem exportedIds_csv [LawfulExportFormats] {payload : ExportPayload}
    (password : String) {rows : Bytes}
    (hrows : writeRows (csvHeader :: payload.records.map csvRow) = .ok rows) :
    exportedIds .Csv password (UTF8_BOM ++ rows) =
      .ok (payload.records.map ExportRecord.id) := by
  have hdrop : (UTF8_BOM ++ rows).drop 3 = rows := List.drop_left' rfl
  have hread := LawfulExportFormats.readRows_writeRows hrows
  have hheads : (payload.records.map csvRow).map (fun row => row.headD "") =
      payload.records.map ExportRecord.id := by
    rw [List.map_map]
    rfl
  unfold exportedIds
  simp only [hdrop, hread]
  exact congrArg Except.ok hheads

end Files

/-! ## What the vault is asked -/

namespace Vault

/-- Calls that do not report an export. -/
def SparesExportAudit : VaultCall → Prop
  | .db (.insertAuditEntry operation _ _ _) => operation ≠ .VaultExport
  | _ => True

section Reading

variable [Crypto] {v : VaultService} {t : Tables}

omit [Crypto] in
theorem only_crypto {P : VaultCall → Prop} {α : Type} (result : Except String α) :
    Fallible.Only (I := VaultI) P (crypto result) := by
  cases result with
  | ok a => exact only_pure a
  | error e => exact only_throw _

omit [Crypto] in
theorem only_query {P : VaultCall → Prop} {op : DbOp} (h : P (.db op)) :
    Fallible.Only (I := VaultI) P (query op) :=
  only_call h

theorem only_requireUnlocked {P : VaultCall → Prop} :
    Fallible.Only (I := VaultI) P (requireUnlocked v) :=
  only_ite (only_pure ()) (only_throw _)

omit [Crypto] in
theorem only_getStoredRecord {P : VaultCall → Prop} {id : Uuid} (h : P (.db (.getRecord id))) :
    Fallible.Only (I := VaultI) P (getStoredRecord id) := by
  refine only_bind (only_query h) ?_
  intro found
  have hfound : ∀ found : Option StoredRecord,
      Fallible.Only (I := VaultI) P (required found (.RecordNotFound id)) := by
    intro found
    cases found with
    | none => exact only_throw _
    | some stored => exact only_pure stored
  exact hfound found

theorem only_listRecords [Unicode] (frequency : Uuid → Nat) (sort : RecordSort) :
    Fallible.Only (I := VaultI) SparesExportAudit (listRecords v frequency .All sort) := by
  refine only_bind only_requireUnlocked fun _ => only_bind (only_query trivial) ?_
  intro stored
  refine only_bind (only_bind (only_attempt (only_query trivial)) fun _ => only_pure _) ?_
  intro states
  refine only_bind (only_mapM ?_) fun _ => only_pure _
  intro record
  exact only_bind (only_crypto _) fun _ => only_bind (only_crypto _) fun _ => only_pure _

theorem only_getDecryptedRecord (id : Uuid) :
    Fallible.Only (I := VaultI) SparesExportAudit (getDecryptedRecord v id) := by
  refine only_bind only_requireUnlocked fun _ => only_bind (only_getStoredRecord trivial) ?_
  intro stored
  refine only_bind (only_crypto _) fun payload => only_bind (only_crypto _) fun decrypted => ?_
  have haudit : SparesExportAudit (.db (.insertAuditEntry .RecordViewPassword (some stored.id)
      (some decrypted.name) none)) := by
    intro heq
    cases heq
  exact only_bind (only_query haudit) fun _ => only_pure _

theorem wpe_showRecord {states : List SyncStateRow} {stored : StoredRecord} :
    wpe vaultEnv (fun record u => u = t ∧ record.id = stored.id) (fun _ u => u = t)
      (showRecord v states stored) t := by
  refine (wpe_bind _ _).mpr (wpe_crypto (fun name _ => ?_) fun _ _ => rfl)
  refine (wpe_bind _ _).mpr (wpe_crypto (fun subtitle _ => ?_) fun _ _ => rfl)
  exact ⟨rfl, rfl⟩

/-- The list of all records has the ids of the live ones. -/
theorem wpe_listRecords_all [Unicode] {frequency : Uuid → Nat} {sort : RecordSort} :
    wpe vaultEnv
      (fun records u => u = t ∧
        (records.map TuiRecord.id).Perm (t.live.map StoredRecord.id))
      (fun _ u => u = t) (listRecords v frequency .All sort) t := by
  refine (wpe_bind _ _).mpr (wpe_requireUnlocked (fun _ => ?_) rfl)
  have hrun : DbOp.run (.listRecords .active) t = .ok (t.live, t) := rfl
  refine (wpe_bind _ _).mpr (wpe_query_of_run hrun (fun stored hsame => ?_) fun _ => rfl)
  -- the rows of the listing are the live ones, in any order
  have hperm : stored.Perm t.live := hsame
  refine (wpe_bind _ _).mpr (wpe_mono ?_ (fun _ _ h => h) wpe_loadSyncStatusMap)
  intro states u hu
  rw [hu]
  have hkept : stored.filter RecordFilter.All.keeps = stored :=
    List.filter_eq_self.mpr fun _ _ => rfl
  -- each row is shown under its own id
  have hshown : wpe vaultEnv
      (fun records u => u = t ∧ records.map TuiRecord.id = stored.map StoredRecord.id)
      (fun _ u => u = t) (stored.mapM (showRecord v states)) t := by
    refine wpe_mapM (P := fun done records u => u = t ∧
      records.map TuiRecord.id = done.map StoredRecord.id) ⟨rfl, rfl⟩ ?_
    rintro done x rest records u - ⟨hu, hids⟩
    rw [hu]
    refine wpe_mono ?_ (fun _ _ h => h) wpe_showRecord
    rintro record u' ⟨hu', hid⟩
    refine ⟨hu', ?_⟩
    rw [List.map_append, List.map_append, hids]
    simp [hid]
  refine (wpe_bind _ _).mpr ?_
  rw [hkept]
  refine wpe_mono ?_ (fun _ _ h => h) hshown
  rintro records u' ⟨hu', hids⟩
  refine ⟨hu', ?_⟩
  -- sorting only permutes them
  calc ((applySort frequency sort records).map TuiRecord.id).Perm (records.map TuiRecord.id) :=
        (applySort_perm frequency sort records).map TuiRecord.id
    _ = stored.map StoredRecord.id := hids
    List.Perm _ (t.live.map StoredRecord.id) := hperm.map StoredRecord.id

/-- Reading a record changes nothing, and gives the record that was asked for. -/
theorem wpe_getDecryptedRecord {id : Uuid} :
    wpe vaultEnv (fun record u => u = t ∧ record.id = id) (fun _ u => u = t)
      (getDecryptedRecord v id) t := by
  refine (wpe_bind _ _).mpr (wpe_requireUnlocked (fun _ => ?_) rfl)
  refine (wpe_bind _ _).mpr (wpe_getStoredRecord (fun row _ => ?_) fun _ => rfl)
  refine (wpe_bind _ _).mpr (wpe_crypto (fun payload _ => ?_) fun _ _ => rfl)
  refine (wpe_bind _ _).mpr (wpe_crypto (fun decrypted hdecrypted => ?_) fun _ _ => rfl)
  have hid : decrypted.id = id := by
    unfold decryptedRecord at hdecrypted
    split at hdecrypted
    · rw [← Except.ok.inj hdecrypted]
      rfl
    · cases hdecrypted
  refine (wpe_bind _ _).mpr (wpe_query_of_run rfl (fun _ _ => ?_) fun _ => rfl)
  exact ⟨rfl, hid⟩

end Reading

end Vault

/-! ## What is noted of an export -/

/-- The bytes that were written, and the details of the audit entries. -/
structure ExportNotes where
  written : List Bytes
  audited : List (Option String)
deriving DecidableEq, Repr

namespace ExportNotes

def empty : ExportNotes where
  written := []
  audited := []

def note (m : ExportNotes) : Event TransferI → ExportNotes
  | ⟨.writeFile _ bytes, _⟩ => { m with written := m.written ++ [bytes] }
  | ⟨.vault (.db (.insertAuditEntry .VaultExport _ _ detail)), _⟩ =>
      { m with audited := m.audited ++ [detail] }
  | _ => m

/-- The notes on a run. -/
def of (trace : List (Event TransferI)) : ExportNotes :=
  trace.foldl note .empty

/-- Calls that are not noted. -/
def Quiet : TransferCall → Prop
  | .writeFile .. => False
  | .vault c => Vault.SparesExportAudit c
  | _ => True

theorem note_quiet (m : ExportNotes) (c : TransferCall) (x : c.Answer) (h : Quiet c) :
    m.note ⟨c, x⟩ = m := by
  unfold note
  split
  · rename_i heq
    cases heq
    exact False.elim h
  · rename_i heq
    cases heq
    have hspares : AuditOperation.VaultExport ≠ .VaultExport := h
    exact absurd rfl hspares
  · rfl

end ExportNotes

/-! ## Outcomes -/

section Outcomes

variable [Crypto] [Argon2] [ExportFormats] [Unicode] {v : VaultService}

/-- Nothing was written, reported or audited. -/
def Unexported (result : ExportResult) (m : ExportNotes) : Prop :=
  m = .empty ∧ ∀ path count format, result ≠ .ExportCompleted path count format

/-- A file with these records was written, or begun, and only their number was reported and
audited. -/
structure Exported (command : ExportCommand) (ids : List String) (result : ExportResult)
    (m : ExportNotes) : Prop where
  written : ∃ bytes, m.written = [bytes] ∧
    exportedIds command.format command.exportPassword bytes = .ok ids
  audited : ∀ detail ∈ m.audited,
    detail = some (exportDetail command.scope command.outputPath ids.length)
  reported : ∀ path count format, result = .ExportCompleted path count format →
    count = ids.length

/-- What was written, audited and reported are the live records of the scope. -/
structure Scoped (v : VaultService) (t : Tables) (command : ExportCommand)
    (result : ExportResult) (m : ExportNotes) : Prop where
  written : ∀ bytes ∈ m.written, ∃ ids,
    exportedIds command.format command.exportPassword bytes = .ok ids ∧
      ids.Perm (command.scope.ids v t)
  audited : ∀ detail ∈ m.audited,
    detail = some (exportDetail command.scope command.outputPath (command.scope.ids v t).length)
  reported : ∀ path count format, result = .ExportCompleted path count format →
    count = (command.scope.ids v t).length

theorem Unexported.scoped {t : Tables} {command : ExportCommand} {result : ExportResult}
    {m : ExportNotes} (h : Unexported result m) : Scoped v t command result m := by
  rcases h with ⟨hm, hresult⟩
  rw [hm]
  refine ⟨?_, ?_, ?_⟩
  · intro bytes hbytes
    cases hbytes
  · intro detail hdetail
    cases hdetail
  · intro path count format heq
    exact absurd heq (hresult path count format)

/-- An export of all live records keeps to its scope if that is all of them. -/
theorem Exported.scoped_iff {t : Tables} {command : ExportCommand} {ids : List String}
    {result : ExportResult} {m : ExportNotes}
    (hids : ids.Perm (t.live.map fun stored => stored.id.toText))
    (h : Exported command ids result m) :
    Scoped v t command result m ↔ ∀ stored ∈ t.live, command.scope.admits v t stored = true := by
  constructor
  · intro hscoped
    rcases h.written with ⟨bytes, hbytes, hread⟩
    have hmem : bytes ∈ m.written := by
      rw [hbytes]
      exact List.mem_singleton.mpr rfl
    rcases hscoped.written bytes hmem with ⟨ids', hread', hperm⟩
    have hsame : ids = ids' := Except.ok.inj (hread.symm.trans hread')
    rw [← hsame] at hperm
    -- nothing was left out, since as many are in the scope as there are
    have hlength : (t.live.filter (command.scope.admits v t)).length = t.live.length := by
      have hcount := (hids.symm.trans hperm).length_eq
      unfold ExportScope.ids at hcount
      rw [List.length_map, List.length_map] at hcount
      exact hcount.symm
    exact List.length_filter_eq_length_iff.mp hlength
  · intro hall
    have hscope : command.scope.ids v t = t.live.map fun stored => stored.id.toText := by
      have hfilter := List.filter_eq_self.mpr hall
      exact congrArg (List.map fun stored => stored.id.toText) hfilter
    have hcount : (command.scope.ids v t).length = ids.length := by
      rw [hscope]
      exact hids.length_eq.symm
    refine ⟨?_, ?_, ?_⟩
    · intro bytes hbytes
      rcases h.written with ⟨bytes', hwritten, hread⟩
      rw [hwritten] at hbytes
      rw [List.mem_singleton.mp hbytes, hscope]
      exact ⟨ids, hread, hids⟩
    · rw [hcount]
      exact h.audited
    · rw [hcount]
      exact h.reported

end Outcomes

section Runs

variable [Parsers]

abbrev notedTransferEnv : Env TransferI (World × ExportNotes) :=
  observing transferEnv ExportNotes.note

variable {w : World} {m : ExportNotes} {v : VaultService}

/-- What the vault is only asked leaves the world as it is. -/
theorem wp_onVault {α : Type} {op : VaultService → VaultM α} {R : α → Prop}
    (honly : Fallible.Only (I := VaultI) Vault.SparesExportAudit (op v))
    (h : wpe vaultEnv (fun a t => t = w.tables ∧ R a) (fun _ t => t = w.tables) (op v)
      w.tables) :
    wp notedTransferEnv (fun outcome u => u = (w, m) ∧ ∀ a, outcome = .ok a → R a)
      (onVault (some v) op).run (w, m) := by
  -- the calls of the vault are none that an export is judged by
  have hcalls : (onVault (some v) op).run.CallsOnly ExportNotes.Quiet :=
    vaultCalls.callsOnly_prog honly fun _ hspares => hspares
  have hworld : wp transferEnv (fun outcome u => u = w ∧ ∀ a, outcome = .ok a → R a)
      (onVault (some v) op).run w := by
    refine wp_of_wpe (wpe_embed vault_serves (wpe_mono ?_ ?_ h))
    · rintro a t ⟨ht, hR⟩
      have ht : t = w.tables := ht
      rw [ht]
      refine ⟨rfl, ?_⟩
      intro b hb
      rw [← Except.ok.inj hb]
      exact hR
    · intro e t ht
      have ht : t = w.tables := ht
      rw [ht]
      refine ⟨rfl, ?_⟩
      intro a ha
      cases ha
  refine wp_mono ?_ (wp_quiet hcalls ExportNotes.note_quiet hworld)
  rintro outcome ⟨w', m'⟩ ⟨⟨hw, hR⟩, hm⟩
  have hw : w' = w := hw
  have hm : m' = m := hm
  rw [hw, hm]
  exact ⟨rfl, hR⟩

/-- The key store is opened and the vault is left alone. -/
theorem wp_unlock [Codec] [Crypto] [Argon2] [ValueJson] {password : String} :
    wp notedTransferEnv (fun _ u => u.1.tables = w.tables ∧ u.2 = m)
      (keystoreCalls.fallible (KeyStore.unlock password)).run (w, m) := by
  have hcalls : (keystoreCalls.fallible (KeyStore.unlock password)).run.CallsOnly
      ExportNotes.Quiet :=
    keystoreCalls.callsOnly_prog (Prog.callsOnly_true _) fun _ _ => trivial
  have hworld : wp transferEnv (fun _ u => u.tables = w.tables)
      (keystoreCalls.fallible (KeyStore.unlock password)).run w := by
    refine wp_of_wpe (wpe_embed keystore_serves (wpe_mono ?_ ?_ wpe_true))
    · intro _ _ _
      rfl
    · intro _ _ _
      rfl
  exact wp_quiet hcalls ExportNotes.note_quiet hworld

/-- The cancel token is read. -/
theorem wp_isCancelled {α : Type} {f : Bool → Prog TransferI α} {Q : α → World × ExportNotes → Prop}
    (h : ∀ cancelled, wp notedTransferEnv Q (f cancelled) (w, m)) :
    wp notedTransferEnv Q (perform .isCancelled >>= f) (w, m) := by
  rintro cancelled ⟨w', m'⟩ ⟨hstep, hnote⟩
  have hw : w' = w := hstep
  have hm : m' = m := hnote
  rw [hw, hm]
  exact h cancelled

/-- A call that leaves the world as it is and is not noted. -/
theorem wpe_ask_still {c : TransferCall} {Q : c.Answer → World × ExportNotes → Prop}
    {E : ImportExportError → World × ExportNotes → Prop} (hquiet : ExportNotes.Quiet c)
    (hstill : ∀ x w', transferEnv w c x w' → w' = w) (h : ∀ x, Q x (w, m)) :
    wpe notedTransferEnv Q E (ask c) (w, m) := by
  refine wpe_ask ?_
  rintro x ⟨w', m'⟩ ⟨hstep, hnote⟩
  have hw : w' = w := hstill x w' hstep
  have hm : m' = m := hnote.trans (ExportNotes.note_quiet m c x hquiet)
  rw [hw, hm]
  exact h x

/-! ### Sessions and files -/

theorem wpe_validatePathWith {extension message : String} {path : PathBuf} :
    wpe notedTransferEnv (fun _ u => u = (w, m)) (fun _ u => u = (w, m))
      (validatePathWith extension message path) (w, m) := by
  refine wpe_ite (fun _ => rfl) fun _ => ?_
  cases path.parent with
  | none => exact rfl
  | some parent =>
      refine wpe_ite (fun _ => rfl) fun _ => (wpe_bind _ _).mpr ?_
      refine wpe_ask_still trivial (fun _ _ h => h) ?_
      intro (found : Bool)
      exact wpe_ite (fun _ => rfl) fun _ => rfl

/-- A session has the scope, the format and the target that were asked for. -/
theorem wpe_createExportSession {scope : ExportScope} {format : ExportFormat}
    {password : String} {path : PathBuf} :
    wpe notedTransferEnv
      (fun (session : ExportSession) u => u = (w, m) ∧ session.format = format ∧
        session.exportPassword = password ∧ session.outputPath = path)
      (fun _ u => u = (w, m)) (createExportSession scope format password path) (w, m) := by
  -- the session has the scope and the format of the command
  have hsession : wpe notedTransferEnv
      (fun (session : ExportSession) u => u = (w, m) ∧ session.format = format ∧
        session.exportPassword = password ∧ session.outputPath = path)
      (fun _ u => u = (w, m))
      (do
        let id ← fresh
        let createdAt ← now
        return {
          id := id
          scope := scope
          format := format
          exportPassword := password
          outputPath := path
          status := .Created
          recordCount := 0
          encryptedSize := none
          createdAt := createdAt
          completedAt := none }) (w, m) := by
    refine (wpe_bind _ _).mpr (wpe_ask_still (c := .vault .newUuid) trivial vault_fresh_still ?_)
    intro id
    refine (wpe_bind _ _).mpr (wpe_ask_still (c := .vault .now) trivial vault_now_still ?_)
    intro createdAt
    exact ⟨rfl, rfl, rfl, rfl⟩
  unfold createExportSession
  cases format with
  | Okb =>
      refine (wpe_bind _ _).mpr (wpe_value (fun _ _ => ?_) fun _ _ => rfl)
      refine (wpe_bind _ _).mpr (wpe_mono ?_ (fun _ _ h => h) wpe_validatePathWith)
      intro _ u hu
      rw [hu]
      exact hsession
  | Csv =>
      refine (wpe_bind _ _).mpr (wpe_mono ?_ (fun _ _ h => h) wpe_validatePathWith)
      intro _ u hu
      rw [hu]
      exact hsession

/-- Whether it fails or not, the bytes are all that is noted of a write. -/
theorem wpe_writeAtomically {temp : String} {bytes : Bytes} {path : PathBuf} :
    wpe notedTransferEnv (fun _ u => u.2 = { m with written := m.written ++ [bytes] })
      (fun _ u => u.2 = { m with written := m.written ++ [bytes] })
      (writeAtomically temp bytes path) (w, m) := by
  refine (wpe_bind _ _).mpr (wpe_call ?_ ?_)
  · rintro x a ⟨w', m'⟩ - ⟨-, hnote⟩
    have hm : m' = { m with written := m.written ++ [bytes] } := hnote
    rw [hm]
    refine wpe_call ?_ ?_
    · rintro x a ⟨u, n⟩ - ⟨-, hnote⟩
      exact hnote
    · rintro x e ⟨u, n⟩ - ⟨-, hnote⟩
      exact hnote
  · rintro x e ⟨w', m'⟩ - ⟨-, hnote⟩
    exact hnote

/-- The records that were collected are those that were asked for, in their order. -/
theorem wp_collectRecords [Codec] [Crypto] (ids : List Uuid) (collected : List ExportRecord) :
    wp notedTransferEnv
      (fun outcome u => u = (w, m) ∧
        match outcome with
        | .ok records => records.map ExportRecord.id =
            collected.map ExportRecord.id ++ ids.map Uuid.toText
        | .error result => ∀ path count format, result ≠ .ExportCompleted path count format)
      (collectRecords (some v) ids collected) (w, m) := by
  induction ids generalizing collected with
  | nil =>
      refine ⟨rfl, ?_⟩
      simp
  | cons id rest ih =>
      refine wp_isCancelled ?_
      intro cancelled
      -- an export that is cancelled collects nothing
      cases cancelled with
      | true => exact ⟨rfl, fun _ _ _ heq => nomatch heq⟩
      | false =>
          rw [if_neg Bool.false_ne_true, wp_bind]
          refine wp_mono ?_ (wp_onVault (Vault.only_getDecryptedRecord id)
            Vault.wpe_getDecryptedRecord)
          rintro outcome u ⟨hu, hid⟩
          rw [hu]
          -- a record that cannot be decrypted ends the export
          cases outcome with
          | error e => exact ⟨rfl, fun _ _ _ heq => nomatch heq⟩
          | ok decrypted =>
              refine wp_mono ?_ (ih (collected ++ [decryptedRecordToExport decrypted]))
              rintro outcome' u' ⟨hu', hids⟩
              refine ⟨hu', ?_⟩
              cases outcome' with
              | error result => exact hids
              | ok records =>
                  have hdecrypted : decrypted.id = id := hid decrypted rfl
                  calc records.map ExportRecord.id
                      = (collected ++ [decryptedRecordToExport decrypted]).map ExportRecord.id ++
                          rest.map Uuid.toText := hids
                    _ = collected.map ExportRecord.id ++ (id :: rest).map Uuid.toText := by
                        simp [hdecrypted]

/-- An export file with these records was written, or at least begun. -/
def Wrote [Crypto] [Argon2] [ExportFormats] (format : ExportFormat) (password : String)
    (ids : List String) (m : ExportNotes) : Prop :=
  m.audited = [] ∧ ∃ bytes, m.written = [bytes] ∧ exportedIds format password bytes = .ok ids

section Writing

variable [Crypto] [Argon2] [ExportFormats] [LawfulCrypto] [LawfulExportFormats]
  (payload : ExportPayload) (password : String) (path : PathBuf)

/-- Nothing was written yet, or the payload was. -/
def Begun (format : ExportFormat) (password : String) (ids : List String) (m : ExportNotes) :
    Prop :=
  m = .empty ∨ Wrote format password ids m

omit [LawfulCrypto] in
theorem wpe_writeCsv :
    wpe notedTransferEnv
      (fun _ u => Wrote .Csv password (payload.records.map ExportRecord.id) u.2)
      (fun _ u => Begun .Csv password (payload.records.map ExportRecord.id) u.2)
      (writeCsv payload path) (w, .empty) := by
  refine (wpe_bind _ _).mpr (wpe_value (fun rows hrows => ?_) fun _ _ => Or.inl rfl)
  have hwritten : writeRows (csvHeader :: payload.records.map csvRow) = .ok rows := by
    cases hresult : writeRows (csvHeader :: payload.records.map csvRow) with
    | error e =>
        rw [hresult] at hrows
        cases hrows
    | ok rows' =>
        rw [hresult] at hrows
        exact congrArg Except.ok (Except.ok.inj hrows)
  have hids := exportedIds_csv password hwritten
  refine (wpe_bind _ _).mpr (wpe_mono ?_ ?_ wpe_writeAtomically)
  · intro _ u hu
    rw [wpe_pure, hu]
    exact ⟨rfl, _, rfl, hids⟩
  · intro _ u hu
    rw [hu]
    exact Or.inr ⟨rfl, _, rfl, hids⟩

theorem wpe_encryptAndWriteOkb :
    wpe notedTransferEnv
      (fun _ u => Wrote .Okb password (payload.records.map ExportRecord.id) u.2)
      (fun _ u => Begun .Okb password (payload.records.map ExportRecord.id) u.2)
      (encryptAndWriteOkb payload password path) (w, .empty) := by
  refine (wpe_bind _ _).mpr (wpe_value (fun json hjson => ?_) fun _ _ => Or.inl rfl)
  refine (wpe_bind _ _).mpr (wpe_ask ?_)
  rintro (salt : Salt) ⟨w₁, m₁⟩ ⟨-, hnote⟩
  have hm : m₁ = .empty := hnote
  rw [hm]
  -- the key of the file is derived from the password and the salt of its header
  have hderived : wpe notedTransferEnv
      (fun dek u => u.2 = .empty ∧ argon2id (utf8 password) salt .medium = .ok dek)
      (fun _ u => u.2 = .empty)
      (onKeystore .KeyDerivationFailed (KeyStore.deriveKeyLocked password salt .medium))
      (w₁, .empty) := by
    refine wpe_mapError ?_
    have hinner : wpe keystoreEnv
        (fun dek _ => argon2id (utf8 password) salt .medium = .ok dek) (fun _ _ => True)
        (KeyStore.deriveKeyLocked password salt .medium) w₁.keystore := by
      refine (wpe_bind _ _).mpr (wpe_call (fun _ _ _ _ _ => ?_) fun _ _ _ _ _ => trivial)
      cases hdek : argon2id (utf8 password) salt .medium with
      | error e => exact trivial
      | ok dek => exact rfl
    have hcalls : (keystoreCalls.fallible
        (KeyStore.deriveKeyLocked password salt .medium)).run.CallsOnly ExportNotes.Quiet :=
      keystoreCalls.callsOnly_prog (Prog.callsOnly_true _) fun _ _ => trivial
    have hworld : wp transferEnv
        (fun outcome _ => ∀ dek, outcome = .ok dek →
          argon2id (utf8 password) salt .medium = .ok dek)
        (keystoreCalls.fallible (KeyStore.deriveKeyLocked password salt .medium)).run w₁ := by
      refine wp_of_wpe (wpe_embed keystore_serves (wpe_mono ?_ ?_ hinner))
      · intro dek _ hdek dek' heq
        rw [← Except.ok.inj heq]
        exact hdek
      · intro e _ _ dek heq
        cases heq
    refine wp_mono ?_ (wp_quiet hcalls ExportNotes.note_quiet hworld)
    rintro outcome u ⟨houtcome, hnotes⟩
    cases outcome with
    | ok dek => exact ⟨hnotes, houtcome dek rfl⟩
    | error e => exact hnotes
  refine (wpe_bind _ _).mpr (wpe_mono ?_ (fun _ _ h => Or.inl h) hderived)
  rintro dek ⟨w₂, m₂⟩ ⟨hm, hdek⟩
  have hm : m₂ = .empty := hm
  rw [hm]
  refine (wpe_bind _ _).mpr (wpe_ask ?_)
  rintro (nonce : Nonce) ⟨w₃, m₃⟩ ⟨-, hnote⟩
  have hm : m₃ = .empty := hnote
  rw [hm]
  refine (wpe_bind _ _).mpr (wpe_value (fun ciphertext hcipher => ?_) fun _ _ => Or.inl rfl)
  -- the file holds the records that were given
  have hids := exportedIds_okb (mapError_eq_ok hjson) hdek (mapError_eq_ok hcipher)
  refine (wpe_bind _ _).mpr (wpe_mono ?_ ?_ wpe_writeAtomically)
  · intro _ u hu
    rw [wpe_pure, hu]
    exact ⟨rfl, _, rfl, hids⟩
  · intro _ u hu
    rw [hu]
    exact Or.inr ⟨rfl, _, rfl, hids⟩

variable [Codec] [Unicode]

omit [Unicode] in
/-- The file has the collected records, and their number is reported. -/
theorem wpe_executeExport {session : ExportSession} {records : List ExportRecord}
    {vaultId : String} :
    wpe notedTransferEnv
      (fun result u => result = (session.outputPath, records.length) ∧
        Wrote session.format session.exportPassword (records.map ExportRecord.id) u.2)
      (fun _ u => Begun session.format session.exportPassword (records.map ExportRecord.id) u.2)
      (executeExport session records vaultId) (w, .empty) := by
  refine wpe_ite (fun _ => Or.inl rfl) fun _ => wpe_ite (fun _ => Or.inl rfl) fun _ => ?_
  refine (wpe_bind _ _).mpr (wpe_ask_still (c := .vault .now) trivial vault_now_still ?_)
  intro exportedAt
  -- the time of completion is read after the file was written
  have hend : ∀ u : World × ExportNotes,
      Wrote session.format session.exportPassword (records.map ExportRecord.id) u.2 →
      wpe notedTransferEnv
        (fun result u => result = (session.outputPath, records.length) ∧
          Wrote session.format session.exportPassword (records.map ExportRecord.id) u.2)
        (fun _ u => Begun session.format session.exportPassword (records.map ExportRecord.id) u.2)
        (now >>= fun _ => pure (session.outputPath, records.length)) u := by
    rintro ⟨u, n⟩ hwrote
    refine (wpe_bind _ _).mpr (wpe_ask_still (c := .vault .now) trivial vault_now_still ?_)
    intro completedAt
    exact ⟨rfl, hwrote⟩
  let payload : ExportPayload :=
    { version := "1.0"
      vaultId := vaultId
      exportedAt := toRfc3339 exportedAt
      records := records }
  cases hformat : session.format with
  | Okb =>
      rw [hformat] at hend
      have hwritten := wpe_encryptAndWriteOkb (w := w) payload session.exportPassword
        session.outputPath
      refine (wpe_bind _ _).mpr (wpe_mono ?_ (fun _ _ h => h) hwritten)
      intro _ u hu
      exact hend u hu
  | Csv =>
      rw [hformat] at hend
      have hwritten := wpe_writeCsv (w := w) payload session.exportPassword session.outputPath
      refine (wpe_bind _ _).mpr (wpe_mono ?_ (fun _ _ h => h) hwritten)
      intro _ u hu
      exact hend u hu

/-! ### The command -/

/-- The session carries what the command asks for. -/
def SessionOf (command : ExportCommand) (session : ExportSession) : Prop :=
  session.format = command.format ∧ session.exportPassword = command.exportPassword ∧
    session.outputPath = command.outputPath

/-- The service has begun the file, or has not. -/
theorem wp_writeExport {vaultDir : String} {command : ExportCommand} {session : ExportSession}
    {records : List ExportRecord} (hsession : SessionOf command session) :
    wp notedTransferEnv
      (fun result u => Unexported result u.2 ∨
        Exported command (records.map ExportRecord.id) result u.2)
      (writeExport (some v) vaultDir command session records) (w, .empty) := by
  refine (wp_bind _ _ _ _ _).mpr ?_
  have hservice : wp notedTransferEnv
      (fun outcome u => 
        match outcome with
        | .ok written => written = (session.outputPath, records.length) ∧
            Wrote session.format session.exportPassword (records.map ExportRecord.id) u.2
        | .error _ =>
            Begun session.format session.exportPassword (records.map ExportRecord.id) u.2)
      (executeExport session records vaultDir).run (w, .empty) :=
    wp_of_wpe wpe_executeExport
  rw [hsession.1, hsession.2.1, hsession.2.2] at hservice
  -- a failed or cancelled export reports nothing, whatever it left on the disk
  have hfailed : ∀ (result : ExportResult) (m : ExportNotes),
      (∀ path count format, result ≠ .ExportCompleted path count format) →
      Begun command.format command.exportPassword (records.map ExportRecord.id) m →
      Unexported result m ∨ Exported command (records.map ExportRecord.id) result m := by
    intro result m hresult hbegun
    rcases hbegun with hempty | ⟨haudited, hwritten⟩
    · rw [hempty]
      exact Or.inl ⟨rfl, hresult⟩
    · refine Or.inr ⟨hwritten, ?_, ?_⟩
      · rw [haudited]
        intro detail hdetail
        cases hdetail
      · intro path count format heq
        exact absurd heq (hresult path count format)
  refine wp_mono ?_ hservice
  rintro outcome ⟨w₁, m₁⟩ hend
  refine wp_isCancelled ?_
  intro cancelled
  cases cancelled with
  | true =>
      rw [if_pos rfl]
      refine hfailed _ m₁ (fun _ _ _ heq => nomatch heq) ?_
      cases outcome with
      | ok written => exact Or.inr hend.2
      | error e => exact hend
  | false =>
      rw [if_neg Bool.false_ne_true]
      cases outcome with
      | error e => exact hfailed _ m₁ (fun _ _ _ heq => nomatch heq) hend
      | ok written =>
          rcases hend with ⟨hresult, haudited, hwritten⟩
          rw [hresult]
          intro x u hstep
          have hnotes : u.2 = { m₁ with audited := m₁.audited ++
              [some (exportDetail command.scope command.outputPath records.length)] } := hstep.2
          rw [haudited, List.nil_append] at hnotes
          refine Or.inr ⟨?_, ?_, ?_⟩
          · rw [hnotes]
            exact hwritten
          · intro detail hdetail
            rw [hnotes] at hdetail
            have hlength : (records.map ExportRecord.id).length = records.length :=
              List.length_map _
            rw [hlength]
            exact List.mem_singleton.mp hdetail
          · intro path count format heq
            cases heq
            exact (List.length_map _).symm

variable [ValueJson]

omit [ValueJson] in
/-- The records are listed, decrypted and written. -/
theorem wp_collectAndWrite {vaultDir : String} {frequency : Uuid → Nat}
    {command : ExportCommand} {session : ExportSession} (hsession : SessionOf command session) :
    wp notedTransferEnv
      (fun result u => Unexported result u.2 ∨
        ∃ ids, ids.Perm (w.tables.live.map fun stored => stored.id.toText) ∧
          Exported command ids result u.2)
      (do
        match ← (onVault (some v) fun v => Vault.listRecords v frequency .All exportSort).run with
        | .error e =>
            return exportVaultError e "error.export_list_records_failed"
              "Failed to list records for export"
        | .ok records =>
            match ← collectRecords (some v) (records.map TuiRecord.id) [] with
            | .error result => return result
            | .ok exported => writeExport (some v) vaultDir command session exported)
      (w, .empty) := by
  have hlist : wp notedTransferEnv
      (fun outcome u => u = (w, ExportNotes.empty) ∧ ∀ records, outcome = .ok records →
        (records.map TuiRecord.id).Perm (w.tables.live.map StoredRecord.id))
      (onVault (some v) fun v => Vault.listRecords v frequency .All exportSort).run
      (w, .empty) :=
    wp_onVault (Vault.only_listRecords frequency exportSort) Vault.wpe_listRecords_all
  refine (wp_bind _ _ _ _ _).mpr (wp_mono ?_ hlist)
  rintro outcome u ⟨hu, hlisted⟩
  rw [hu]
  -- the listing fails before anything is written
  cases outcome with
  | error e => exact Or.inl ⟨rfl, fun _ _ _ heq => nomatch heq⟩
  | ok records =>
      refine (wp_bind _ _ _ _ _).mpr (wp_mono ?_ (wp_collectRecords _ []))
      rintro collected u' ⟨hu', hcollected⟩
      rw [hu']
      cases collected with
      | error result => exact Or.inl ⟨rfl, hcollected⟩
      | ok exported =>
          refine wp_mono ?_ (wp_writeExport hsession)
          intro result u'' hend
          refine hend.imp_right fun hexported => ⟨_, ?_, hexported⟩
          -- what is written are the records of the listing, each once
          have hids : exported.map ExportRecord.id =
              (records.map TuiRecord.id).map Uuid.toText := hcollected
          have htexts : w.tables.live.map (fun stored => stored.id.toText) =
              (w.tables.live.map StoredRecord.id).map Uuid.toText := by
            rw [List.map_map]
            rfl
          rw [hids, htexts]
          exact (hlisted records rfl).map Uuid.toText

/-- Either nothing is written, or all live records are. -/
theorem wp_handleExecuteExport {vaultDir : String} {frequency : Uuid → Nat}
    {command : ExportCommand} :
    wp notedTransferEnv
      (fun result u => Unexported result u.2 ∨
        ∃ ids, ids.Perm (w.tables.live.map fun stored => stored.id.toText) ∧
          Exported command ids result u.2)
      (handleExecuteExport (some v) vaultDir frequency command) (w, .empty) := by
  refine wp_isCancelled ?_
  intro cancelled
  cases cancelled with
  | true =>
      -- cancelled before it starts
      rw [if_pos rfl]
      exact Or.inl ⟨rfl, fun _ _ _ heq => nomatch heq⟩
  | false =>
      rw [if_neg Bool.false_ne_true]
      refine (wp_bind _ _ _ _ _).mpr (wp_mono ?_ wp_unlock)
      rintro unlocked ⟨w₁, m₁⟩ ⟨htables, hm⟩
      have hm : m₁ = .empty := hm
      have htables : w₁.tables = w.tables := htables
      rw [hm, ← htables]
      cases unlocked with
      | error e => exact Or.inl ⟨rfl, fun _ _ _ heq => nomatch heq⟩
      | ok key =>
          -- the session that is executed is the one of the command
          have hsession : wp notedTransferEnv
              (fun outcome u => u = (w₁, ExportNotes.empty) ∧
                match outcome with
                | .ok session => SessionOf command session
                | .error _ => True)
              (createExportSession command.scope command.format command.exportPassword
                command.outputPath).run (w₁, .empty) := by
            refine wp_of_wpe (wpe_mono ?_ ?_ wpe_createExportSession)
            · intro session u hsession
              exact hsession
            · intro e u hu
              exact ⟨hu, trivial⟩
          refine (wp_bind _ _ _ _ _).mpr (wp_mono ?_ hsession)
          rintro outcome u ⟨hu, hsession⟩
          rw [hu]
          cases outcome with
          | error e => exact Or.inl ⟨rfl, fun _ _ _ heq => nomatch heq⟩
          | ok session => exact wp_collectAndWrite hsession

/-- What a run leaves. -/
theorem outcome_of_run {vaultDir : String} {frequency : Uuid → Nat}
    {command : ExportCommand} {trace : List (Event TransferI)} {result : ExportResult}
    {w' : World}
    (hret : (handleExecuteExport (some v) vaultDir frequency command).Returns trace result)
    (hpath : Path transferEnv w trace w') :
    Unexported result (ExportNotes.of trace) ∨
      ∃ ids, ids.Perm (w.tables.live.map fun stored => stored.id.toText) ∧
        Exported command ids result (ExportNotes.of trace) :=
  wp_observing wp_handleExecuteExport hret hpath

/-- A run that writes no file keeps to its scope, and a run that writes one does so if all live
records are in the scope. -/
theorem handleExecuteExport_scoped {vaultDir : String} {frequency : Uuid → Nat}
    {command : ExportCommand} {trace : List (Event TransferI)} {result : ExportResult}
    {w' : World}
    (hret : (handleExecuteExport (some v) vaultDir frequency command).Returns trace result)
    (hpath : Path transferEnv w trace w') :
    ((ExportNotes.of trace).written = [] →
      Scoped v w.tables command result (ExportNotes.of trace)) ∧
    ((ExportNotes.of trace).written ≠ [] →
      (Scoped v w.tables command result (ExportNotes.of trace) ↔
        ∀ stored ∈ w.tables.live, command.scope.admits v w.tables stored = true)) := by
  rcases outcome_of_run hret hpath with hunexported | ⟨ids, hids, hexported⟩
  · have hscoped : Scoped v w.tables command result (ExportNotes.of trace) :=
      hunexported.scoped
    refine ⟨fun _ => hscoped, ?_⟩
    intro hwritten
    have hnone : ExportNotes.of trace = .empty := hunexported.1
    rw [hnone] at hwritten
    exact absurd rfl hwritten
  · refine ⟨?_, fun _ => hexported.scoped_iff hids⟩
    intro hnone
    rcases hexported.written with ⟨bytes, hwritten, -⟩
    have hone : (ExportNotes.of trace).written = [bytes] := hwritten
    rw [hnone] at hone
    cases hone

end Writing

end Runs

/-! ## A tag without records -/

namespace TagExport

abbrev unicode : Unicode where
  toLowercase text := String.ofList (text.toList.map Char.toLower)
  debug := Json.quote

/-- No file of a foreign format is read here. -/
abbrev parsers : Parsers where
  bitwarden _ path := .error (.FileNotFound path)
  onePux _ path := .error (.FileNotFound path)
  opVault _ path _ := .error (.FileNotFound path)
  keePass _ path _ := .error (.FileNotFound path)
  csv _ path _ := .error (.FileNotFound path)
  printValue := Json.pretty 0

def recordText : String := "11111111-1111-1111-1111-111111111111"

/-- The rows of the vault with one note. -/
def rows : List (List String) :=
  [csvHeader,
    [recordText, "secure_note", "note", "", "", "", "", "", "false", "", "", "", "", "", ""]]

/-- The rows of the vault with a tagged note. -/
def taggedRows : List (List String) :=
  [csvHeader,
    [recordText, "secure_note", "tagged", "", "", "", "", "work", "false", "", "", "", "", "", ""]]

abbrev exportFormats : ExportFormats :=
  referenceExportFormats [rows, taggedRows] []

theorem lawfulExportFormats : @LawfulExportFormats exportFormats :=
  referenceExportFormats_lawful (by decide +kernel) List.nodup_nil

abbrev crypto : Crypto :=
  referenceCrypto [.SecureNote "note" none, .SecureNote "tagged" none]

theorem lawful : @LawfulCrypto crypto :=
  referenceCrypto_lawful (by decide +kernel)

/-- A plain export with the password of the vault. -/
def command (scope : ExportScope) : ExportCommand where
  scope := scope
  outputPath := ⟨true, ["home", "user", "export.csv"]⟩
  exportPassword := ""
  masterPassword := "correct horse"
  format := .Csv

section

attribute [local instance] Sample.codec Sample.serde crypto lawful KeyStore.Changed.argon2
  KeyStore.Changed.valueJson unicode parsers exportFormats lawfulExportFormats

def create (name : String) (tags : List String) : VaultCommand :=
  .createRecord
    { credentialType := .SecureNote
      payload := .SecureNote name none
      isFavorite := false
      expiresAt := none
      tags := tags }

def after (command : VaultCommand) (b : Bench) : Bench :=
  (b.perform Sample.instant OneVault.service command none).2

/-- A vault with a note under a tag, and one without tags in the trash. -/
def taggedBench : TransferBench :=
  { OneVault.bench with
    vault := after (.softDeleteRecord (Uuid.filled 2)) (after (create "note" [])
      (after (create "tagged" ["work"])
        { tables := .fresh Sample.seed
          uuids := [Uuid.filled 1, Uuid.filled 2]
          nonces := [Nonce.filled 1, Nonce.filled 2]
          fault := none })) }

/-- The export of the notes under the tag. -/
def handler : Prog TransferI ExportResult :=
  handleExecuteExport (some OneVault.service) "vault" (fun _ => 0) (command (.ByTag "work"))

def outcome (b : TransferBench) : ExportResult × TransferBench :=
  TransferBench.complete KeyStore.Changed.newSalt KeyStore.Changed.newNonce Sample.instant handler b

def trace (b : TransferBench) : List (Event TransferI) :=
  TransferBench.completeTrace KeyStore.Changed.newSalt KeyStore.Changed.newNonce Sample.instant
    handler b

theorem returns_trace (b : TransferBench) : handler.Returns (trace b) (outcome b).1 :=
  TransferBench.returns_complete _ _ _ _ _

theorem path_trace (b : TransferBench) :
    Path transferEnv b.world (trace b) (outcome b).2.world := by
  unfold trace outcome
  exact TransferBench.path_complete _ _ _ _ _

/-- A completed export has written its file. -/
theorem written_trace {b : TransferBench} {count : Nat}
    (h : (outcome b).1 = .ExportCompleted (command (.ByTag "work")).outputPath count .Csv) :
    (ExportNotes.of (trace b)).written ≠ [] := by
  rcases outcome_of_run (returns_trace b) (path_trace b) with hunexported | ⟨ids, -, hexported⟩
  · have hnone : ∀ path count format, (outcome b).1 ≠ .ExportCompleted path count format :=
      hunexported.2
    exact absurd h (hnone _ _ _)
  · rcases hexported.written with ⟨bytes, hwritten, -⟩
    rw [hwritten]
    exact List.cons_ne_nil _ _

/-- One record is exported where all that are live have the tag, and one where none has it. -/
theorem completed :
    (outcome taggedBench).1 =
        .ExportCompleted (command (.ByTag "work")).outputPath 1 .Csv ∧
      (ExportScope.ByTag "work").ids OneVault.service taggedBench.world.tables = [recordText] ∧
      (∀ stored ∈ taggedBench.world.tables.live,
        (ExportScope.ByTag "work").admits OneVault.service taggedBench.world.tables stored =
          true) ∧
      (outcome OneVault.bench).1 =
        .ExportCompleted (command (.ByTag "work")).outputPath 1 .Csv ∧
      (ExportScope.ByTag "work").ids OneVault.service OneVault.bench.world.tables = [] := by
  decide +kernel

/-- An export of the records under a tag keeps to it, as all live records have the tag. -/
theorem scoped_tagged :
    (ExportScope.ByTag "work").ids OneVault.service taggedBench.world.tables = [recordText] ∧
      Scoped OneVault.service taggedBench.world.tables (command (.ByTag "work"))
        (outcome taggedBench).1 (ExportNotes.of (trace taggedBench)) := by
  rcases completed with ⟨hcompleted, htagged, hall, -⟩
  refine ⟨htagged, ?_⟩
  exact ((handleExecuteExport_scoped (returns_trace taggedBench) (path_trace taggedBench)).2
    (written_trace hcompleted)).mpr hall

/-- No record has the tag, and one is exported. -/
theorem unscoped_byTag :
    handler.Returns (trace OneVault.bench) (outcome OneVault.bench).1 ∧
      Path transferEnv OneVault.bench.world (trace OneVault.bench)
        (outcome OneVault.bench).2.world ∧
      (outcome OneVault.bench).1 =
        .ExportCompleted (command (.ByTag "work")).outputPath 1 .Csv ∧
      (ExportScope.ByTag "work").ids OneVault.service OneVault.bench.world.tables = [] ∧
      ¬ Scoped OneVault.service OneVault.bench.world.tables (command (.ByTag "work"))
        (outcome OneVault.bench).1 (ExportNotes.of (trace OneVault.bench)) := by
  rcases completed with ⟨-, -, -, hcompleted, hnone⟩
  refine ⟨returns_trace _, path_trace _, hcompleted, hnone, ?_⟩
  intro hscoped
  have hcount := hscoped.reported _ _ _ hcompleted
  have hlength : ((command (.ByTag "work")).scope.ids OneVault.service
      OneVault.bench.world.tables).length = 0 := congrArg List.length hnone
  exact Nat.one_ne_zero (hcount.trans hlength)

end

end TagExport

end OakKeyring
