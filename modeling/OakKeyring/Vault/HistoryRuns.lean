import OakKeyring.Vault.EditOutcome
import OakKeyring.Vault.History

/-!
# The history of a password

Each change of a login's password puts the ciphertext it replaces at the end of the history, with
the second of the clock. The history is pruned and read by these seconds.
-/

namespace OakKeyring

open Effect Recent Tables Transition

/-! ## The clock of an edit -/

def VaultCall.reading : (c : VaultCall) → c.Answer → Option DateTime
  | .now, time => some time
  | .db _, _ => none
  | .newUuid, _ => none
  | .newNonce, _ => none

def noteReading (first : Option DateTime) (e : Event VaultI) : Option DateTime :=
  first <|> VaultCall.reading e.call e.answer

/-- The first time that was read from the clock in a run. -/
def firstReading (trace : List (Event VaultI)) : Option DateTime :=
  trace.foldl noteReading none

abbrev clockEnv : Env VaultI (Tables × Option DateTime) :=
  observing vaultEnv noteReading

namespace Vault

section Rules

variable {α : Type} {t : Tables} {first : Option DateTime}
  {E : VaultError → Tables × Option DateTime → Prop}

theorem noteReading_db {op : DbOp} (answer : Except SqliteError op.Result) :
    noteReading first ⟨.db op, answer⟩ = first := by
  cases first <;> rfl

theorem wpe_query_clock {op : DbOp} {Q : op.Result → Tables × Option DateTime → Prop}
    (hok : ∀ expected result u, op.run t = .ok (expected, u) → op.Same expected result →
      Q result (u, first))
    (hfault : ∀ e, E (.DatabaseError e) (t, first)) :
    wpe clockEnv Q E (query op) (t, first) := by
  refine wpe_call ?_ ?_
  · rintro answer result ⟨u, noted⟩ hanswer ⟨hstep, hnote⟩
    have hvalue : answer = .ok result := hanswer
    have hkept : noted = first := hnote.trans (noteReading_db answer)
    rw [hkept]
    rcases hstep with ⟨expected, result', hrun, hsame, heq⟩ | ⟨⟨e, heq⟩, -⟩
    · rw [heq] at hvalue
      cases hvalue
      exact hok expected result u hrun hsame
    · rw [heq] at hvalue
      cases hvalue
  · rintro answer e ⟨u, noted⟩ hanswer ⟨hstep, hnote⟩
    have hvalue : answer = .error e := hanswer
    have hkept : noted = first := hnote.trans (noteReading_db answer)
    rw [hkept]
    rcases hstep with ⟨expected, result', hrun, hsame, heq⟩ | ⟨-, hsame⟩
    · rw [heq] at hvalue
      cases hvalue
    · have hstill : u = t := hsame
      rw [hstill]
      exact hfault e

theorem wpe_now_clock {Q : DateTime → Tables × Option DateTime → Prop}
    (h : ∀ time, Q time (t, first <|> some time)) :
    wpe clockEnv Q E now (t, first) := by
  refine wpe_ask ?_
  rintro (time : DateTime) ⟨u, noted⟩ ⟨hstep, hnote⟩
  have hsame : u = t := hstep
  have hnoted : noted = (first <|> some time) := hnote
  rw [hsame, hnoted]
  exact h time

/-- Once the clock was read, the first reading stays what it is. -/
theorem wpe_after_reading {time : DateTime} {p : VaultM α} {Q : α → Tables → Prop}
    {E : VaultError → Tables → Prop} (h : wpe vaultEnv Q E p t) :
    wpe clockEnv (fun a s => Q a s.1 ∧ s.2 = some time) (fun e s => E e s.1 ∧ s.2 = some time) p
      (t, some time) := by
  have hany : p.run.CallsOnly fun _ => True := by
    induction p.run with
    | ret a => trivial
    | call c k ih => exact ⟨trivial, ih⟩
  refine wp_mono ?_ (wp_noted (m := some time) hany (fun _ _ _ => rfl) h)
  intro outcome s hend
  cases outcome with
  | ok a => exact hend
  | error e => exact hend

/-- The notes of a clock that was not read are of no matter to what does not depend on them. -/
theorem wpe_any_reading {first : Option DateTime} {p : VaultM α} {Q : α → Tables → Prop}
    (h : wpe vaultEnv Q (fun _ _ => True) p t) :
    wpe clockEnv (fun a s => Q a s.1) (fun _ _ => True) p (t, first) := by
  rw [wpe_iff] at h ⊢
  refine ⟨?_, fun _ _ _ _ _ => trivial⟩
  intro trace a s hret hpath
  refine h.1 trace a s.1 hret ?_
  exact hpath.map Prod.fst fun _ _ _ _ hstep => hstep.1

end Rules

/-! ## What an edit does to the history -/

section Edits

variable {t u : Tables} {id : Uuid}

/-- The entries of a record that are kept before one is added: a full history loses one of the
least second. -/
def Pruned (t : Tables) (id : Uuid) (kept : List (Nat × HistoryRow)) : Prop :=
  if 10 ≤ (t.historyOf id).length then
    ∃ oldest ∈ t.oldestHistory id, kept = (t.historyOf id).filter fun entry => entry.1 ≠ oldest.1
  else kept = t.historyOf id

/-- The entry that an edit adds. -/
def savedEntry (t : Tables) (id : Uuid) (data : Bytes) (nonce : Nonce) (version : Nat)
    (time : DateTime) : Nat × HistoryRow :=
  (t.lastHistoryId + 1,
    { recordId := id
      encryptedPassword := data
      nonce := nonce
      dekVersion := version
      changedAt := datetimeToTimestamp time })

theorem wpe_savePasswordHistory_clock (id : Uuid) (data : Bytes) (nonce : Nonce) (version : Nat) :
    wpe clockEnv
      (fun _ s => Outside [.passwordHistory] t s.1 ∧ ∃ time kept, s.2 = some time ∧
        Pruned t id kept ∧
        s.1.historyOf id = kept ++ [savedEntry t id data nonce version time])
      (fun _ _ => True) (savePasswordHistory id data nonce version) (t, none) := by
  have hinsert : ∀ u : Tables, Outside [.passwordHistory] t u →
      Pruned t id (u.historyOf id) → u.lastHistoryId = t.lastHistoryId →
      wpe clockEnv
        (fun _ s => Outside [.passwordHistory] t s.1 ∧ ∃ time kept, s.2 = some time ∧
          Pruned t id kept ∧
          s.1.historyOf id = kept ++ [savedEntry t id data nonce version time])
        (fun _ _ => True) (do
          let time ← now
          query (.insertPasswordHistory
            { recordId := id
              encryptedPassword := data
              nonce := nonce
              dekVersion := version
              changedAt := datetimeToTimestamp time })) (u, none) := by
    intro u hout hpruned hlast
    refine (wpe_bind _ _).mpr (wpe_now_clock fun time => wpe_query_clock ?_ fun _ => trivial)
    intro _ _ x hrun _
    rcases Tables.ok_of_bind hrun with ⟨added, hadded, hvalue⟩
    have hx : x = added := (congrArg Prod.snd (Except.ok.inj hvalue)).symm
    rcases referring_ok hadded with ⟨-, hrow⟩
    rw [hx, hrow]
    refine ⟨hout.trans (outside_addHistory _), time, _, rfl, hpruned, ?_⟩
    have hadd := historyOf_addHistory (t := u) (savedEntry t id data nonce version time).2 id
    have hown : (savedEntry t id data nonce version time).2.recordId = id := rfl
    rw [if_pos hown, hlast] at hadd
    exact hadd
  refine (wpe_bind _ _).mpr (wpe_query_clock ?_ fun _ => trivial)
  intro (expected : Nat) (count : Nat) u hrun hsame
  have hcount : count = (t.historyOf id).length ∧ u = t := by
    have hpair := Except.ok.inj hrun
    have hvalue : count = expected := hsame
    rw [hvalue]
    exact ⟨(congrArg Prod.fst hpair).symm, (congrArg Prod.snd hpair).symm⟩
  rw [hcount.2]
  refine wpe_ite (fun hfull => ?_) fun hfew => ?_
  · have hfull : 10 ≤ (t.historyOf id).length := by
      rw [← hcount.1]
      exact hfull
    refine (wpe_bind _ _).mpr ((wpe_bind _ _).mpr (wpe_query_clock ?_ fun _ => trivial))
    intro (least : List Nat) (numbers : List Nat) w hread hnumbers
    have hpair := Except.ok.inj hread
    have hw : w = t := (congrArg Prod.snd hpair).symm
    have hleast : least = (t.oldestHistory id).map Prod.fst := (congrArg Prod.fst hpair).symm
    have hperm : numbers.Perm ((t.oldestHistory id).map Prod.fst) := by
      rw [← hleast]
      exact hnumbers
    have hne : t.historyOf id ≠ [] := by
      intro hnil
      rw [hnil] at hfull
      cases hfull
    -- whichever of the entries comes first, one of the least second goes
    rcases head_oldest hperm hne with ⟨oldest, holdest, hhead⟩
    rw [hw, hhead]
    refine wpe_query_clock ?_ fun _ => trivial
    intro _ _ x hprune _
    rcases historyOf_deletePasswordHistoryEntry id hprune with ⟨hhistory, hlast⟩
    refine hinsert x (DbOp.outside_run hprune) ?_ hlast
    unfold Pruned
    rw [if_pos hfull]
    exact ⟨oldest, holdest, hhistory⟩
  · refine hinsert t (.refl _ t) ?_ rfl
    unfold Pruned
    rw [if_neg (by rw [← hcount.1]; exact hfew)]

/-- The row of a record is a login that decrypts to this payload. -/
def StoredLogin [Crypto] (kek : Bytes) (id : Uuid) (payload : EncryptedPayload) (t : Tables) :
    Prop :=
  ∃ row, t.records.lookup id = some row ∧ row.credentialType = .Login ∧
    row.aad = recordAad id ∧ row.payload kek = some payload

variable [Crypto] {kek : Bytes} {v : VaultService} {params : UpdateRecordParams}

theorem StoredLogin.unique {payload payload' : EncryptedPayload}
    (h : StoredLogin kek id payload t) (h' : StoredLogin kek id payload' t) :
    payload = payload' := by
  rcases h with ⟨row, hrow, -, -, hpayload⟩
  rcases h' with ⟨row', hrow', -, -, hpayload'⟩
  have hsame : row = row' := Option.some.inj (hrow.symm.trans hrow')
  rw [hsame] at hpayload
  exact Option.some.inj (hpayload.symm.trans hpayload')

omit [Crypto] in
theorem makesOnly_afterRow (version : Nat) (stale : Bool) :
    MakesOnly (DbOp.Follows ([.tags, .recordTags] ++ tagFollowers))
      (afterRow params version stale) := by
  refine makesOnly_bind ?_ fun _ => ?_
  · exact makesOnly_mono (makesOnly_replaceTags_follows _ _) fun _ h =>
      List.Subset.trans h (List.subset_append_left _ _)
  · exact makesOnly_mono (makesOnly_afterTags version stale) fun _ h =>
      List.Subset.trans h (List.subset_append_right _ _)

variable [LawfulCrypto]

/-- The statements from the new ciphertext on leave the history alone. -/
theorem wpe_writeEdit_login {stored : StoredRecord} {row : RecordRow} {stale : Bool}
    (hkey : v.HoldsKey kek) (hrow : u.records.lookup params.id = some row)
    (htype : row.credentialType = .Login) (hid : stored.id = params.id) :
    wpe vaultEnv
      (fun _ w => StoredLogin kek params.id params.payload w ∧
        w.historyOf params.id = u.historyOf params.id)
      (fun _ _ => True)
      (do
        let nonce ← newNonce
        let encryptedData ← crypto
          (v.crypto.encryptPayload params.payload (recordAad params.id) nonce)
        let time ← now
        markRecordListIndexDirty
        let updated : Bool ← query
          (.updateRecord (editedRecord v stored params encryptedData nonce time)
            params.expectedVersion)
        if updated = false then
          throw (.VersionConflict params.expectedVersion stored.version)
        afterRow params (stored.version + 1) stale) u := by
  refine (wpe_bind _ _).mpr (wpe_newNonce fun nonce => ?_)
  refine (wpe_bind _ _).mpr (wpe_crypto (fun encryptedData hencrypted => ?_) fun _ _ => trivial)
  refine (wpe_bind _ _).mpr (wpe_now fun time => ?_)
  refine (wpe_bind _ _).mpr (wpe_query (fun _ _ w hdirty _ => ?_) fun _ => trivial)
  have hw : Outside [.metadata] u w := DbOp.outside_run hdirty
  -- the marker of the index does not touch the rows
  have hlookup : w.records.lookup params.id = some row := by
    have hrecords : w.records = u.records := hw .records (by decide)
    rw [hrecords]
    exact hrow
  refine (wpe_bind _ _).mpr (wpe_query (fun (expected updated : Bool) x hrun hsame => ?_)
    fun _ => trivial)
  have hupdated : updated = expected := hsame
  rw [hupdated]
  refine wpe_ite (fun _ => trivial) fun hdone => ?_
  have hend : w.updateRecord (editedRecord v stored params encryptedData nonce time)
      params.expectedVersion = (expected, x) := Except.ok.inj hrun
  rcases updateRecord_cases w (editedRecord v stored params encryptedData nonce time)
    params.expectedVersion with ⟨row', hrow', -, hwritten⟩ | ⟨-, hmissed⟩
  -- the row is the one that was read, with the new payload
  · have hx : x = w.updateRow params.id
        (updatedRow (editedRecord v stored params encryptedData nonce time)) := by
      rw [← hid]
      exact congrArg Prod.snd (hend.symm.trans hwritten)
    have hout : Outside [.records] w x := by
      rw [hx]
      exact outside_updateRow w _ _
    -- the stored payload opens to what was asked for
    have hnew : StoredLogin kek params.id params.payload x := by
      refine ⟨updatedRow (editedRecord v stored params encryptedData nonce time) row, ?_, htype,
        rfl, ?_⟩
      · rw [hx, lookup_updateRow, if_pos rfl, hlookup]
        rfl
      · exact payload_encrypted hkey.opens hencrypted
    -- tags, audit entry and mark follow, and none of them touches the row
    have hrest : Ensures (Outside ([.tags, .recordTags] ++ tagFollowers) x)
        (afterRow params (stored.version + 1) stale) x :=
      ensures_outside (makesOnly_afterRow _ _)
    refine wpe_mono ?_ (fun _ _ _ => trivial) hrest
    intro _ y hy
    have hrecords : y.records = x.records := hy .records (by decide)
    constructor
    · rcases hnew with ⟨new, hnew, hfields⟩
      exact ⟨new, by rw [hrecords]; exact hnew, hfields⟩
    · calc y.historyOf params.id
          = x.historyOf params.id := hy.historyOf (by decide) _
        _ = w.historyOf params.id := hout.historyOf (by decide) _
        _ = u.historyOf params.id := hw.historyOf (by decide) _
  -- an update that hits no row is refused
  · have hfalse : expected = false := congrArg Prod.fst (hend.symm.trans hmissed)
    exact absurd hfalse hdone

/-- What a successful edit of a login leaves of its history, by the clock of the edit. -/
structure EditedLogin (kek : Bytes) (params : UpdateRecordParams) (old : EncryptedPayload)
    (t : Tables) (s : Tables × Option DateTime) : Prop where
  stored : StoredLogin kek params.id params.payload s.1
  kept : passwordChanged old params.payload = false →
    s.1.historyOf params.id = t.historyOf params.id
  saved : passwordChanged old params.payload = true → ∃ time kept entry, s.2 = some time ∧
    Pruned t params.id kept ∧ s.1.historyOf params.id = kept ++ [entry] ∧
    entry.1 = t.lastHistoryId + 1 ∧ changedAt entry = datetimeToTimestamp time ∧
    ∀ password, old.textField "password" = some password → Holds kek entry password

/-- The ciphertext of a login is an entry that holds its password. -/
theorem holds_saved {row : RecordRow} {payload : EncryptedPayload} {password : String} {n : Nat}
    {ts : Int} (haad : row.aad = recordAad id) (hpayload : row.payload kek = some payload)
    (hpassword : payload.textField "password" = some password) :
    Holds kek (n,
      { recordId := id
        encryptedPassword := row.encryptedData
        nonce := row.nonce
        dekVersion := row.dekVersion
        changedAt := ts }) password := by
  unfold RecordRow.payload payloadUnder at hpayload
  split at hpayload
  · cases hpayload
  · rename_i plaintext hplain
    rw [haad] at hplain
    cases hjson : payloadFromJson plaintext with
    | error e =>
        rw [hjson] at hpayload
        cases hpayload
    | ok read =>
        rw [hjson] at hpayload
        have hread : read = payload := Option.some.inj hpayload
        rw [hread] at hjson
        rcases LawfulCrypto.textFields_of_fromJson hjson with ⟨inner, hinner, hfields⟩
        exact ⟨plaintext, inner, hplain, hinner, hfields "password" password hpassword⟩

theorem wpe_updateRecord_login {old : EncryptedPayload} (hkey : v.HoldsKey kek)
    (hstored : StoredLogin kek params.id old t) :
    wpe clockEnv (fun _ s => EditedLogin kek params old t s) (fun _ _ => True)
      (updateRecord v params) (t, none) := by
  rcases hstored with ⟨row, hrow, htype, haad, hpayload⟩
  have hfound : t.storedRecord params.id = some (storedRow t params.id row) := by
    unfold Tables.storedRecord
    rw [hrow]
    rfl
  refine (wpe_bind _ _).mpr (wpe_requireUnlocked (fun _ => ?_) trivial)
  refine (wpe_bind _ _).mpr ((wpe_bind _ _).mpr (wpe_query_clock ?_ fun _ => trivial))
  intro (expected : Option StoredRecord) (found : Option StoredRecord) w hread hsame
  have hpair := Except.ok.inj hread
  have hvalue : found = some (storedRow t params.id row) := by
    have hanswer : found = expected := hsame
    have hexpected : expected = t.storedRecord params.id := (congrArg Prod.fst hpair).symm
    rw [hanswer, hexpected, hfound]
  -- reading changes nothing
  have hw : w = t := (congrArg Prod.snd hpair).symm
  rw [hw, hvalue]
  refine wpe_required (fun stored heq => ?_) fun hnone => (nomatch hnone)
  rw [← Option.some.inj heq]
  refine wpe_ite (fun _ => trivial) fun _ => ?_
  refine (wpe_bind _ _).mpr (wpe_checked (fun _ _ => ?_) fun _ _ => trivial)
  refine (wpe_bind _ _).mpr (wpe_checked (fun _ _ => ?_) fun _ _ => trivial)
  refine (wpe_bind _ _).mpr (wpe_crypto (fun oldPayload hold => ?_) fun _ _ => trivial)
  -- the row opens to the payload that was stored
  have hsameOld : oldPayload = old := by
    have hread : row.payload kek = some oldPayload := hkey.opens.payload hold
    exact Option.some.inj (hread.symm.trans hpayload)
  rw [hsameOld]
  refine wpe_ite (fun hchanged => ?_) fun hkept => ?_
  · refine (wpe_bind _ _).mpr (wpe_mono ?_ (fun _ _ _ => trivial)
      (wpe_savePasswordHistory_clock params.id _ _ _))
    -- saving the old password leaves the row as it was
    rintro _ ⟨u, noted⟩ ⟨hout, time, kept, hnoted, hpruned, hhistory⟩
    have hreading : noted = some time := hnoted
    have hrow' : u.records.lookup params.id = some row := by
      have hrecords : u.records = t.records := hout .records (by decide)
      rw [hrecords]
      exact hrow
    rw [hreading]
    refine wpe_mono ?_ (fun _ _ _ => trivial) (wpe_after_reading
      (wpe_writeEdit_login hkey hrow' htype rfl))
    rintro _ s ⟨⟨hnew, hunchanged⟩, hclock⟩
    refine ⟨hnew, fun hfalse => ?_, fun _ => ⟨time, kept, savedEntry t params.id
      row.encryptedData row.nonce row.dekVersion time, hclock, hpruned, ?_, rfl, rfl, ?_⟩⟩
    -- an entry was saved, so the password had changed
    · rw [hchanged.2] at hfalse
      cases hfalse
    · rw [hunchanged]
      exact hhistory
    · exact fun password hpassword => holds_saved haad hpayload hpassword
  · refine wpe_mono ?_ (fun _ _ _ => trivial) (wpe_any_reading
      (wpe_writeEdit_login hkey hrow htype rfl))
    rintro _ s ⟨hnew, hunchanged⟩
    refine ⟨hnew, fun _ => hunchanged, fun htrue => ?_⟩
    exact absurd ⟨htype, htrue⟩ hkept

end Edits

end Vault

end OakKeyring
