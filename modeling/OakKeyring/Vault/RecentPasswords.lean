import OakKeyring.Vault.HistoryRuns

/-!
# The right ten passwords

The history of a login holds the passwords that were replaced last, in the order in which they
were, and is read in that order for as long as no two changes share a second.
-/

namespace OakKeyring

open Effect Recent Tables Transition

/-! ## The numbers of the history -/

namespace Tables

/-- The numbers of the history are those that were given, each once. -/
structure HistoryKeyed (t : Tables) : Prop where
  numbered : t.HistoryNumbered
  nodup : (t.passwordHistory.map Prod.fst).Nodup

variable {t u : Tables} {id : Uuid}

theorem HistoryKeyed.find (h : t.HistoryKeyed) {entry : Nat × HistoryRow}
    (hentry : entry ∈ t.passwordHistory) :
    (t.passwordHistory.find? fun other => other.1 = entry.1) = some entry := by
  cases hfind : t.passwordHistory.find? fun other => other.1 = entry.1 with
  | none =>
      have hnone := List.find?_eq_none.mp hfind entry hentry
      simp at hnone
  | some other =>
      have hsame : other.1 = entry.1 := by simpa using List.find?_some hfind
      exact congrArg some (List.inj_on_of_nodup_map h.nodup (List.mem_of_find?_eq_some hfind) hentry
        hsame)

theorem HistoryKeyed.of_sublist (h : t.HistoryKeyed)
    (hsub : u.passwordHistory.Sublist t.passwordHistory)
    (hlast : u.lastHistoryId = t.lastHistoryId) : u.HistoryKeyed where
  numbered := by
    intro entry hentry
    rw [hlast]
    exact h.numbered entry (hsub.subset hentry)
  nodup := h.nodup.sublist (hsub.map Prod.fst)

theorem HistoryKeyed.addHistory (h : t.HistoryKeyed) (entry : HistoryRow) :
    (t.addHistory entry).HistoryKeyed where
  numbered := by
    intro other hother
    rcases List.mem_append.mp hother with hold | hnew
    · exact Nat.le_succ_of_le (h.numbered other hold)
    · exact Nat.le_of_eq (congrArg Prod.fst (List.mem_singleton.mp hnew))
  nodup := by
    have hmap : (t.addHistory entry).passwordHistory.map Prod.fst =
        t.passwordHistory.map Prod.fst ++ [t.lastHistoryId + 1] := by
      unfold Tables.addHistory
      simp
    rw [hmap, List.nodup_append']
    refine ⟨h.nodup, List.nodup_singleton _, ?_⟩
    intro n hn hn'
    rcases List.mem_map.mp hn with ⟨other, hother, hnumber⟩
    have hle := h.numbered other hother
    rw [List.mem_singleton.mp hn'] at hnumber
    omega

end Tables

/-- Every statement keeps the numbers of the history apart. -/
theorem DbOp.historyKeyed_run {op : DbOp} {t t' : Tables} {result : op.Result}
    (hkeyed : t.HistoryKeyed) (h : op.run t = .ok (result, t')) : t'.HistoryKeyed := by
  -- only a delete or an insert touches the history
  cases op with
  | hardDeleteRecord id =>
      cases h
      exact hkeyed.of_sublist List.filter_sublist rfl
  | batchHardDeleteRecords ids =>
      cases h
      -- each row of the batch takes its entries with it
      have hgen : ∀ (rest : List Uuid) (u : Tables), u.HistoryKeyed →
          (rest.foldl deleteRow u).HistoryKeyed := by
        intro rest
        induction rest with
        | nil => exact fun _ hu => hu
        | cons id rest ih =>
            intro u hu
            exact ih _ (hu.of_sublist List.filter_sublist rfl)
      exact hgen _ t hkeyed
  | deletePasswordHistoryEntry number =>
      cases h
      exact hkeyed.of_sublist List.filter_sublist rfl
  | insertPasswordHistory entry =>
      rcases ok_of_bind h with ⟨u, hu, hvalue⟩
      cases hvalue
      rcases referring_ok hu with ⟨-, hrow⟩
      rw [hrow]
      exact hkeyed.addHistory entry
  | _ =>
      have hout := DbOp.outside_run h .passwordHistory (by simp [DbOp.writes])
      have hentries : t'.passwordHistory = t.passwordHistory := congrArg Prod.fst hout
      have hlast : t'.lastHistoryId = t.lastHistoryId := congrArg Prod.snd hout
      refine hkeyed.of_sublist ?_ hlast
      rw [hentries]

theorem historyKeyed_path {trace : List (Event VaultI)} {t u : Tables}
    (hpath : Path vaultEnv t trace u) (hkeyed : t.HistoryKeyed) : u.HistoryKeyed := by
  refine hpath.invariant (P := HistoryKeyed) ?_ hkeyed
  intro w c answer w' hcall hinv
  have hwithin : c.Within fun _ => True := by
    cases c <;> trivial
  exact Vault.vaultEnv_keep (fun _ _ _ _ _ hrun hw => DbOp.historyKeyed_run hw hrun) hwithin
    hcall hinv

/-- Every state of a vault keeps the numbers of the history apart. -/
theorem historyKeyed_of_run [Codec] [Serde] [Crypto] {es : List (Step Tables VaultLabel)}
    {seed : VaultSeed} {t : Tables} (hrun : Run vaultStep (Tables.fresh seed) es t) :
    ∀ u ∈ visited (Tables.fresh seed) es, u.HistoryKeyed := by
  refine hrun.invariant (C := fun _ => True) ⟨?_, List.nodup_nil⟩ (fun _ _ => trivial) ?_
  · intro entry hentry
    cases hentry
  · intro e hstep _ hkeyed
    exact historyKeyed_path hstep.2 hkeyed

namespace Vault

/-- What is pruned from a full history that grew with the clock is its first entry. -/
theorem Pruned.eq {t : Tables} {id : Uuid} {kept : List (Nat × HistoryRow)}
    (h : Pruned t id kept) (hkeyed : t.HistoryKeyed)
    (hgrowing : Growing changedAt (t.historyOf id)) :
    kept = if (t.historyOf id).length < 10 then t.historyOf id else (t.historyOf id).tail := by
  unfold Pruned at h
  by_cases hfew : (t.historyOf id).length < 10
  · rw [if_neg (by omega)] at h
    rw [if_pos hfew]
    exact h
  · rw [if_pos (by omega)] at h
    rw [if_neg hfew]
    rcases h with ⟨oldest, holdest, hkept⟩
    rcases mem_oldestHistory.mp holdest with ⟨hmem, hleast⟩
    have hcons := hgrowing.cons_of_least hmem fun entry hentry => not_lt.mpr (hleast entry hentry)
    have hnodup : ((t.historyOf id).map Prod.fst).Nodup :=
      hkeyed.nodup.sublist (List.filter_sublist.map Prod.fst)
    rw [hcons, List.map_cons, List.nodup_cons] at hnodup
    rw [hkept, hcons, List.filter_cons_of_neg (by simp), List.tail_cons]
    refine List.filter_eq_self.mpr ?_
    intro entry hentry
    have hne : entry.1 ≠ oldest.1 := by
      intro heq
      exact hnodup.1 (heq ▸ List.mem_map_of_mem hentry)
    simpa using hne

end Vault

/-! ## The life of a login -/

/-- An edit of the record that went through, or anything that leaves its payload and its history
alone. -/
inductive LoginLabel
  | edit (v : VaultService) (params : UpdateRecordParams) (trace : List (Event VaultI))
  | other

section

variable [Crypto] {kek : Bytes} {id : Uuid} {t t' u : Tables} {v : VaultService}

open Vault

def loginStep (kek : Bytes) (id : Uuid) (t : Tables) : LoginLabel → Tables → Prop
  | .edit v params trace, t' =>
      v.HoldsKey kek ∧ params.id = id ∧ params.payload.credentialType = .Login ∧
        (updateRecord v params).run.Returns trace (.ok ()) ∧ Path vaultEnv t trace t'
  | .other, t' =>
      t'.HistoryKeyed ∧ t'.historyOf id = t.historyOf id ∧
        ∀ payload, StoredLogin kek id payload t → StoredLogin kek id payload t'

/-- The password of the record as it is stored. -/
def currentPassword (kek : Bytes) (id : Uuid) (t : Tables) : Option String := do
  let row ← t.records.lookup id
  let payload ← row.payload kek
  payload.textField "password"

/-- The password that a step replaces. -/
def replacedBy (kek : Bytes) (id : Uuid) (e : Step Tables LoginLabel) : Option String :=
  match e.label with
  | .edit _ params _ => (currentPassword kek id e.source).filter fun password =>
      params.payload.textField "password" ≠ some password
  | .other => none

/-- The passwords that were replaced, in the order of the changes. -/
def replaced (kek : Bytes) (id : Uuid) (done : List (Step Tables LoginLabel)) : List String :=
  done.filterMap (replacedBy kek id)

/-- The entry is decrypted to the password, unless the database fails. -/
def DecryptsTo (v : VaultService) (t : Tables) (entry : PasswordHistory) (password : String) :
    Prop :=
  ∀ trace outcome t', (decryptHistoryPassword v entry.id).run.Returns trace outcome →
    Path historyEnv t trace t' →
    outcome = .ok password ∨ ∃ fault, outcome = .error (.DatabaseError fault)

/-- The history has the ten passwords that were replaced last, and every list of it has them
newest first. -/
structure RightTen (kek : Bytes) (id : Uuid) (done : List (Step Tables LoginLabel))
    (t : Tables) : Prop where
  held : List.Forall₂ (Holds kek) (t.historyOf id) (recent 10 (replaced kek id done))
  listed : ∀ v : VaultService, v.HoldsKey kek → ∀ trace entries t',
    (getPasswordHistory v id).run.Returns trace (.ok entries) → Path historyEnv t trace t' →
    List.Forall₂ (DecryptsTo v t) entries ((replaced kek id done).reverse.take 10)

/-- A change of the password reads a later second from the clock than the changes in the history
have. -/
def AtLaterSecond (kek : Bytes) (id : Uuid) (e : Step Tables LoginLabel) : Prop :=
  ∀ v params trace, e.label = .edit v params trace → replacedBy kek id e ≠ none →
    ∀ time, firstReading trace = some time → ∀ entry ∈ e.source.historyOf id,
      changedAt entry < datetimeToTimestamp time

/-- A login that was not edited yet. -/
structure NewLogin (kek : Bytes) (id : Uuid) (t : Tables) : Prop where
  keyed : t.HistoryKeyed
  stored : ∃ payload, payload.credentialType = .Login ∧ StoredLogin kek id payload t
  unused : t.historyOf id = []

/-- A history that grew with the clock, of the passwords replaced last. -/
structure Ordered (kek : Bytes) (id : Uuid) (done : List (Step Tables LoginLabel))
    (t : Tables) : Prop where
  keyed : t.HistoryKeyed
  stored : ∃ payload, payload.credentialType = .Login ∧ StoredLogin kek id payload t ∧
    ∀ password, (replaced kek id done).getLast? = some password →
      payload.textField "password" ≠ some password
  growing : Growing changedAt (t.historyOf id)
  held : List.Forall₂ (Holds kek) (t.historyOf id) (recent 10 (replaced kek id done))

theorem ordered_new (h : NewLogin kek id t) : Ordered kek id [] t where
  keyed := h.keyed
  stored := by
    rcases h.stored with ⟨payload, htype, hstored⟩
    refine ⟨payload, htype, hstored, ?_⟩
    intro password hlast
    cases hlast
  growing := by
    rw [h.unused]
    exact List.Pairwise.nil
  held := by
    rw [h.unused]
    exact List.Forall₂.nil

/-! ## What is read of an ordered history -/

omit [Crypto] in
theorem mem_passwordHistory {entry : Nat × HistoryRow} (h : entry ∈ t.historyOf id) :
    entry ∈ t.passwordHistory :=
  List.mem_of_mem_filter h

theorem decryptsTo_of_holds (hkey : v.HoldsKey kek) (hkeyed : t.HistoryKeyed)
    {entry : Nat × HistoryRow} {password : String} (hentry : entry ∈ t.historyOf id)
    (h : Holds kek entry password) : DecryptsTo v t (passwordHistoryOf entry) password := by
  intro trace outcome t' hret hpath
  have hwpe := wpe_decryptHistoryPassword hkey h (hkeyed.find (mem_passwordHistory hentry))
  rcases (wpe_iff _).mp hwpe with ⟨hok, herror⟩
  cases outcome with
  | ok password' =>
      left
      rw [hok trace password' t' hret hpath]
  | error e =>
      right
      rcases herror trace e t' hret hpath with ⟨fault, he⟩
      exact ⟨fault, by rw [he]⟩

omit [Crypto] in
/-- A list of the history is a beginning of its entries by their seconds. -/
theorem returns_getPasswordHistory (hkey : v.HoldsKey kek) {trace : List (Event HistoryI)}
    {entries : List PasswordHistory}
    (hret : (getPasswordHistory v id).run.Returns trace (.ok entries))
    (hpath : Path historyEnv t trace t') :
    ∃ rows, NewestFirst changedAt (t.historyOf id) rows ∧
      entries = (rows.take 10).map passwordHistoryOf := by
  rw [getPasswordHistory_eq hkey] at hret
  rcases returns_ok_call hret with ⟨answer, htrace, hanswer⟩
  rw [htrace] at hpath
  rcases hpath with ⟨w, ⟨-, ⟨rows, hrows, hok⟩ | ⟨e, herror⟩⟩, -⟩
  · exact ⟨rows, hrows, Except.ok.inj (hanswer.symm.trans hok)⟩
  · exact nomatch hanswer.symm.trans herror

omit [Crypto] in
/-- Every order by the seconds is one that the database may list. -/
theorem exists_getPasswordHistory (hkey : v.HoldsKey kek) {rows : List (Nat × HistoryRow)}
    (hrows : NewestFirst changedAt (t.historyOf id) rows) :
    ∃ trace, (getPasswordHistory v id).run.Returns trace
        (.ok ((rows.take 10).map passwordHistoryOf)) ∧ Path historyEnv t trace t := by
  refine ⟨[⟨.getPasswordHistory id 10, .ok ((rows.take 10).map passwordHistoryOf)⟩], ?_, ?_⟩
  · rw [getPasswordHistory_eq hkey]
    exact returns_historyQuery _ _
  · exact ⟨t, ⟨rfl, Or.inl ⟨rows, hrows, rfl⟩⟩, rfl⟩

theorem Ordered.rightTen {done : List (Step Tables LoginLabel)} (h : Ordered kek id done t) :
    RightTen kek id done t where
  held := h.held
  listed := by
    intro v hkey trace entries t' hret hpath
    rcases returns_getPasswordHistory hkey hret hpath with ⟨rows, hrows, hentries⟩
    have hreverse : rows = (t.historyOf id).reverse := hrows.eq_reverse h.growing
    have hlength : (t.historyOf id).length ≤ 10 := by
      rw [h.held.length_eq, length_recent]
      exact Nat.min_le_right _ _
    have hall : rows.take 10 = (t.historyOf id).reverse := by
      rw [hreverse, List.take_of_length_le (by rw [List.length_reverse]; exact hlength)]
    rw [hentries, hall, ← reverse_recent, List.map_reverse]
    refine List.rel_reverse ?_
    refine List.forall₂_map_left_iff.mpr (List.forall₂_iff_get.mpr ⟨h.held.length_eq, ?_⟩)
    intro i hi hi'
    exact decryptsTo_of_holds hkey h.keyed (List.get_mem _ _)
      ((List.forall₂_iff_get.mp h.held).2 i hi hi')

/-! ## What a step replaces -/

theorem replaced_concat (done : List (Step Tables LoginLabel)) (e : Step Tables LoginLabel) :
    replaced kek id (done ++ [e]) = replaced kek id done ++ (replacedBy kek id e).toList := by
  unfold replaced
  rw [List.filterMap_append]
  cases h : replacedBy kek id e <;> simp [h]

theorem currentPassword_of_stored {payload : EncryptedPayload}
    (h : StoredLogin kek id payload t) :
    currentPassword kek id t = payload.textField "password" := by
  rcases h with ⟨row, hrow, -, -, hpayload⟩
  unfold currentPassword
  rw [hrow]
  change (row.payload kek >>= fun payload => payload.textField "password") = _
  rw [hpayload]
  rfl

omit [Crypto] in
/-- Between logins, the password changed when the field did. -/
theorem passwordChanged_iff {old new : EncryptedPayload} (hold : old.credentialType = .Login)
    (hnew : new.credentialType = .Login) :
    ∃ password, old.textField "password" = some password ∧
      (passwordChanged old new = true ↔ new.textField "password" ≠ some password) := by
  cases old <;> cases hold
  cases new <;> cases hnew
  rename_i oldPassword _ _ _ _ newPassword _ _
  refine ⟨oldPassword, rfl, ?_⟩
  calc decide (oldPassword ≠ newPassword) = true
      ↔ oldPassword ≠ newPassword := decide_eq_true_iff
    _ ↔ some newPassword ≠ some oldPassword := by
        rw [ne_comm]
        exact not_congr Option.some_inj.symm

/-- What an edit replaces is the password it changes. -/
theorem replacedBy_edit {old : EncryptedPayload} {params : UpdateRecordParams}
    {trace : List (Event VaultI)} {e : Step Tables LoginLabel}
    (hlabel : e.label = .edit v params trace) (hold : old.credentialType = .Login)
    (hstored : StoredLogin kek id old e.source) (hnew : params.payload.credentialType = .Login) :
    ∃ password, old.textField "password" = some password ∧
      ((passwordChanged old params.payload = true ∧ replacedBy kek id e = some password ∧
          params.payload.textField "password" ≠ some password) ∨
        (passwordChanged old params.payload = false ∧ replacedBy kek id e = none ∧
          params.payload.textField "password" = some password)) := by
  rcases passwordChanged_iff hold hnew with ⟨password, hpassword, hiff⟩
  refine ⟨password, hpassword, ?_⟩
  unfold replacedBy
  rw [hlabel]
  dsimp only
  rw [currentPassword_of_stored hstored, hpassword]
  by_cases hsame : params.payload.textField "password" = some password
  · right
    have hkept : passwordChanged old params.payload = false := by
      rw [Bool.eq_false_iff]
      exact fun hchanged => hiff.mp hchanged hsame
    exact ⟨hkept, by simp [hsame], hsame⟩
  · left
    exact ⟨hiff.mpr hsame, by simp [hsame], hsame⟩

/-! ## Steps that keep the history in order -/

variable {done : List (Step Tables LoginLabel)} {e : Step Tables LoginLabel}

/-- What an edit leaves, by its own clock. -/
theorem edited_of_step [LawfulCrypto] {old : EncryptedPayload} {params : UpdateRecordParams}
    {trace : List (Event VaultI)} (hkey : v.HoldsKey kek)
    (hstored : StoredLogin kek params.id old t)
    (hret : (updateRecord v params).run.Returns trace (.ok ()))
    (hpath : Path vaultEnv t trace u) :
    EditedLogin kek params old t (u, firstReading trace) :=
  wpe_observing (wpe_updateRecord_login hkey hstored) hret hpath

/-- A change of the password puts what it replaced behind the entries that stay. -/
theorem Ordered.changed {params : UpdateRecordParams} {password : String}
    {kept : List (Nat × HistoryRow)} {entry : Nat × HistoryRow} (h : Ordered kek id done e.source)
    (hkeyed : e.target.HistoryKeyed) (hlogin : params.payload.credentialType = .Login)
    (hstored : StoredLogin kek id params.payload e.target)
    (hreplaced : replacedBy kek id e = some password)
    (hnew : params.payload.textField "password" ≠ some password)
    (hkept : Pruned e.source id kept) (hhistory : e.target.historyOf id = kept ++ [entry])
    (hholds : Holds kek entry password)
    (hlater : ∀ other ∈ e.source.historyOf id, changedAt other < changedAt entry) :
    Ordered kek id (done ++ [e]) e.target := by
  -- the run replaced one password more
  have hconcat : replaced kek id (done ++ [e]) = replaced kek id done ++ [password] := by
    rw [replaced_concat, hreplaced]
    rfl
  -- the oldest entry goes once the limit is reached
  have hpruned := hkept.eq h.keyed h.growing
  have hlength := h.held.length_eq
  refine ⟨hkeyed, ⟨params.payload, hlogin, hstored, ?_⟩, ?_, ?_⟩
  · intro last hlast
    rw [hconcat, List.getLast?_concat] at hlast
    rw [← Option.some.inj hlast]
    exact hnew
  · rw [hhistory, hpruned]
    refine growing_concat ?_ ?_
    · split
      · exact h.growing
      · exact h.growing.tail
    · intro other hother
      refine hlater other ?_
      split at hother
      · exact hother
      · exact List.mem_of_mem_tail hother
  · rw [hhistory, hconcat, recent_concat (by decide), hpruned, hlength]
    refine List.rel_append ?_ (List.Forall₂.cons hholds List.Forall₂.nil)
    split
    · exact h.held
    · rw [← List.drop_one, ← List.drop_one]
      exact List.forall₂_drop 1 h.held

/-- What leaves the payload and the history alone keeps them in order. -/
theorem Ordered.unchanged {payload : EncryptedPayload} (h : Ordered kek id done e.source)
    (hkeyed : e.target.HistoryKeyed) (hreplaced : replacedBy kek id e = none)
    (hlogin : payload.credentialType = .Login) (hstored : StoredLogin kek id payload e.target)
    (hfield : ∀ old, StoredLogin kek id old e.source →
      payload.textField "password" = old.textField "password")
    (hhistory : e.target.historyOf id = e.source.historyOf id) :
    Ordered kek id (done ++ [e]) e.target := by
  have hsame : replaced kek id (done ++ [e]) = replaced kek id done := by
    rw [replaced_concat, hreplaced]
    exact List.append_nil _
  rcases h.stored with ⟨old, -, hold, hlast⟩
  refine ⟨hkeyed, ⟨payload, hlogin, hstored, ?_⟩, ?_, ?_⟩
  · intro password hpassword
    rw [hsame] at hpassword
    rw [hfield old hold]
    exact hlast password hpassword
  · rw [hhistory]
    exact h.growing
  · rw [hhistory, hsame]
    exact h.held

/-- The last entry of an ordered history is not the one that is pruned. -/
theorem Ordered.last_mem_pruned {last : Nat × HistoryRow} {kept : List (Nat × HistoryRow)}
    (h : Ordered kek id done t) (hkept : Pruned t id kept)
    (hlast : (t.historyOf id).getLast? = some last) : last ∈ kept := by
  rw [hkept.eq h.keyed h.growing]
  rcases List.getLast?_eq_some_iff.mp hlast with ⟨before, hhistory⟩
  rw [hhistory]
  split
  · exact List.mem_append_right _ (List.mem_singleton_self last)
  · rename_i hfull
    cases before with
    | nil =>
        rw [List.nil_append, List.length_singleton] at hfull
        omega
    | cons first before =>
        exact List.mem_append_right _ (List.mem_singleton_self last)

variable [LawfulCrypto]

/-- An edit of an ordered login either keeps it in order without a change of the password, or
adds an entry for the password that it replaced. -/
theorem Ordered.edit_cases {params : UpdateRecordParams} {trace : List (Event VaultI)}
    (h : Ordered kek id done e.source) (hlabel : e.label = .edit v params trace)
    (hstep : loginStep kek id e.source e.label e.target) :
    (replacedBy kek id e = none ∧ Ordered kek id (done ++ [e]) e.target) ∨
      ∃ password time kept entry, replacedBy kek id e = some password ∧
        currentPassword kek id e.source = some password ∧
        firstReading trace = some time ∧ changedAt entry = datetimeToTimestamp time ∧
        Pruned e.source id kept ∧ e.target.historyOf id = kept ++ [entry] ∧
        e.target.HistoryKeyed ∧
        ((∀ other ∈ e.source.historyOf id, changedAt other < changedAt entry) →
          Ordered kek id (done ++ [e]) e.target) := by
  rw [hlabel] at hstep
  rcases hstep with ⟨hkey, hid, hlogin, hret, hpath⟩
  have hkeyed := historyKeyed_path hpath h.keyed
  -- the login that is stored before the edit, and what the edit makes of it
  rcases h.stored with ⟨old, hold, hstored, hlast⟩
  have hedited : EditedLogin kek params old e.source (e.target, firstReading trace) := by
    refine edited_of_step hkey ?_ hret hpath
    rw [hid]
    exact hstored
  have hnew : StoredLogin kek id params.payload e.target := by
    rw [← hid]
    exact hedited.stored
  -- the password changed, or nothing was saved
  rcases replacedBy_edit hlabel hold hstored hlogin with
    ⟨password, hpassword, ⟨hchanged, hreplaced, hother⟩ | ⟨hchanged, hreplaced, hsame⟩⟩
  · right
    rcases hedited.saved hchanged with ⟨time, kept, entry, htime, hkept, hhistory, -, hat, hholds⟩
    rw [hid] at hkept hhistory
    have hcurrent : currentPassword kek id e.source = some password := by
      rw [currentPassword_of_stored hstored]
      exact hpassword
    refine ⟨password, time, kept, entry, hreplaced, hcurrent, htime, hat, hkept, hhistory, hkeyed,
      ?_⟩
    intro hlater
    exact h.changed hkeyed hlogin hnew hreplaced hother hkept hhistory (hholds password hpassword)
      hlater
  · left
    refine ⟨hreplaced, h.unchanged hkeyed hreplaced hlogin hnew ?_ ?_⟩
    -- the password that is stored is the one that was there before
    · intro payload hpayload
      rw [StoredLogin.unique hpayload hstored, hpassword]
      exact hsame
    · have hkept := hedited.kept hchanged
      rw [hid] at hkept
      exact hkept

/-- A step whose change of the password reads a later second keeps the history in order. -/
theorem Ordered.step (h : Ordered kek id done e.source)
    (hstep : loginStep kek id e.source e.label e.target) (hlater : AtLaterSecond kek id e) :
    Ordered kek id (done ++ [e]) e.target := by
  cases hlabel : e.label with
  | edit v params trace =>
      rcases h.edit_cases hlabel hstep with ⟨-, hordered⟩ |
        ⟨password, time, kept, entry, hreplaced, -, htime, hat, -, -, -, hordered⟩
      · exact hordered
      · refine hordered fun other hother => ?_
        rw [hat]
        refine hlater v params trace hlabel ?_ time htime other hother
        rw [hreplaced]
        simp
  | other =>
      rw [hlabel] at hstep
      rcases hstep with ⟨hkeyed, hhistory, hkept⟩
      rcases h.stored with ⟨old, hold, hstored, -⟩
      refine h.unchanged hkeyed ?_ hold (hkept old hstored) ?_ hhistory
      · unfold replacedBy
        rw [hlabel]
      · intro payload hpayload
        rw [StoredLogin.unique hpayload hstored]

omit [LawfulCrypto] in
/-- An entry that may be listed first and holds another password than the one replaced last. -/
theorem not_rightTen_of_first {last : Nat × HistoryRow} {password other : String}
    (hkey : v.HoldsKey kek) (hkeyed : t.HistoryKeyed) (hmem : last ∈ t.historyOf id)
    (hnewest : ∀ entry ∈ t.historyOf id, changedAt entry ≤ changedAt last)
    (hholds : Holds kek last other)
    (hreplaced : (replaced kek id done).getLast? = some password) (hne : other ≠ password) :
    ¬ RightTen kek id done t := by
  intro hright
  rcases exists_newestFirst hmem hnewest with ⟨rows, hrows⟩
  rcases exists_getPasswordHistory hkey hrows with ⟨trace, hret, hpath⟩
  have hlisted := hright.listed v hkey trace _ t hret hpath
  rcases List.getLast?_eq_some_iff.mp hreplaced with ⟨before, hbefore⟩
  rw [hbefore, List.reverse_concat] at hlisted
  have hfirst : DecryptsTo v t (passwordHistoryOf last) password := by
    cases hlisted with
    | cons hfirst _ => exact hfirst
  rcases returns_decryptHistoryPassword hkey hholds (hkeyed.find (mem_passwordHistory hmem)) with
    ⟨reading, hread, hwhile⟩
  rcases hfirst reading (.ok other) t hread hwhile with hsame | ⟨fault, herror⟩
  · exact hne (Except.ok.inj hsame)
  · cases herror

omit [LawfulCrypto] in
/-- The password that was replaced last is not the current one. -/
theorem Ordered.last_holds {last : Nat × HistoryRow} {password : String}
    (h : Ordered kek id done t) (hlast : (t.historyOf id).getLast? = some last)
    (hcurrent : currentPassword kek id t = some password) :
    ∃ other, Holds kek last other ∧ other ≠ password := by
  rcases last_of_forall₂ h.held hlast with ⟨other, hother, hholds⟩
  rw [getLast?_recent (by decide)] at hother
  rcases h.stored with ⟨payload, -, hstored, hdiffers⟩
  refine ⟨other, hholds, ?_⟩
  intro hsame
  rw [currentPassword_of_stored hstored, ← hsame] at hcurrent
  exact hdiffers other hother hcurrent

/-- A change of the password at a second that the history has already may be listed behind the
password that was replaced before. -/
theorem Ordered.not_rightTen (h : Ordered kek id done e.source)
    (hstep : loginStep kek id e.source e.label e.target) (hnot : ¬ AtLaterSecond kek id e) :
    ¬ RightTen kek id (done ++ [e]) e.target := by
  unfold AtLaterSecond at hnot
  push Not at hnot
  rcases hnot with ⟨v, params, trace, hlabel, hne, time, htime, other, hother, hle⟩
  have hkey : v.HoldsKey kek := by
    rw [hlabel] at hstep
    exact hstep.1
  rcases h.edit_cases hlabel hstep with ⟨hnone, -⟩ |
    ⟨password, time', kept, entry, hreplaced, hcurrent, htime', hat, hkept, hhistory, hkeyed, -⟩
  · exact absurd hnone hne
  · have hclock : time' = time := Option.some.inj (htime'.symm.trans htime)
    rw [hclock] at hat
    -- the newest of the older entries, which is not older than the new one
    cases hlast : (e.source.historyOf id).getLast? with
    | none =>
        rw [List.getLast?_eq_none_iff.mp hlast] at hother
        cases hother
    | some last =>
        have hgreatest := h.growing.le_last hlast
        rcases h.last_holds hlast hcurrent with ⟨older, hholds, hdiffers⟩
        refine not_rightTen_of_first hkey hkeyed ?_ ?_ hholds ?_ hdiffers
        · rw [hhistory]
          exact List.mem_append_left _ (h.last_mem_pruned hkept hlast)
        · intro row hrow
          rw [hhistory] at hrow
          rcases List.mem_append.mp hrow with hold | hnew
          · refine hgreatest row ?_
            rw [hkept.eq h.keyed h.growing] at hold
            split at hold
            · exact hold
            · exact List.mem_of_mem_tail hold
          · calc changedAt row
                = changedAt entry := by rw [List.mem_singleton.mp hnew]
              _ = datetimeToTimestamp time := hat
              _ ≤ changedAt other := hle
              _ ≤ changedAt last := hgreatest other hother
        · rw [replaced_concat, hreplaced]
          exact List.getLast?_concat

/-! ## Every run -/

/-- In every run of a login's edits, the history has the right ten passwords and lists them newest
first after every step, exactly when every change of the password reads a later second. -/
theorem right_ten_iff {es : List (Step Tables LoginLabel)} (hnew : NewLogin kek id t)
    (hrun : Run (loginStep kek id) t es t') :
    (∀ done rest u, es = done ++ rest → Run (loginStep kek id) t done u →
      RightTen kek id done u) ↔ ∀ e ∈ es, AtLaterSecond kek id e :=
  hrun.history_iff_of_strong (ordered_new hnew) (fun _ _ h => h.rightTen)
    (fun _ _ hstep h hlater => h.step hstep hlater)
    fun _ _ hstep h hnot => h.not_rightTen hstep hnot

end

/-! ## Two passwords within a second -/

namespace SameSecond

def payload (password : String) : EncryptedPayload :=
  .Login "mail" "user" password none none

/-- The passwords that the login gets after its first one. -/
def passwords : List String :=
  ["second", "third", "fourth", "fifth", "sixth", "seventh", "eighth", "ninth", "tenth", "eleventh",
    "twelfth"]

abbrev crypto : Crypto :=
  referenceCrypto (payload "first" :: passwords.map payload)

def kek : Bytes :=
  List.replicate 32 7

def service : VaultService where
  crypto := .fromUnlockedKeystore
    { kek := some kek
      currentDekVersion := 1 }
  deviceId := "device"

def recordId : Uuid :=
  Uuid.filled 1

def start : Bench where
  tables := .fresh Sample.seed
  uuids := [recordId]
  nonces := [Nonce.filled 1, Nonce.filled 2, Nonce.filled 3, Nonce.filled 4, Nonce.filled 5,
    Nonce.filled 6, Nonce.filled 7, Nonce.filled 8, Nonce.filled 9, Nonce.filled 10,
    Nonce.filled 11, Nonce.filled 12]
  fault := none

def create : VaultCommand :=
  .createRecord
    { credentialType := .Login
      payload := payload "first"
      isFavorite := false
      expiresAt := none
      tags := [] }

def edit (password : String) (version : Nat) : UpdateRecordParams where
  id := recordId
  payload := payload password
  isFavorite := false
  expiresAt := none
  tags := []
  expectedVersion := version

section

attribute [local instance] Sample.codec Sample.serde crypto

/-- So many seconds after the record was created. -/
def later (n : Nat) : DateTime :=
  { Sample.instant with seconds := Sample.instant.seconds + n }

/-- The state after a command. -/
def after (n : Nat) (command : VaultCommand) (b : Bench) : Bench :=
  (b.perform (later n) service command none).2

def created : Bench :=
  after 0 create start

def edited : Bench :=
  after 0 (.updateRecord (edit "second" 1)) created

def twice : Bench :=
  after 0 (.updateRecord (edit "third" 2)) edited

def step (n : Nat) (params : UpdateRecordParams) (b : Bench) : Step Tables LoginLabel where
  source := b.tables
  label := .edit service params (b.label (later n) service (.updateRecord params) none).trace
  target := (after n (.updateRecord params) b).tables

theorem lawful : LawfulCrypto :=
  referenceCrypto_lawful (by decide +kernel)

theorem loginStep_after {n : Nat} {params : UpdateRecordParams} {b : Bench}
    (hid : params.id = recordId) (hlogin : params.payload.credentialType = .Login)
    (hok : (b.perform (later n) service (.updateRecord params) none).1 = .ok ()) :
    loginStep kek recordId b.tables (step n params b).label
      (after n (.updateRecord params) b).tables := by
  have hstep := b.vaultStep_perform (later n) service (.updateRecord params) none
  refine ⟨⟨_, rfl, rfl⟩, hid, hlogin, ?_, hstep.2⟩
  rw [← hok]
  exact hstep.1

/-- What the two changes return, and what the second one finds. -/
theorem edits_ok :
    (created.perform (later 0) service (.updateRecord (edit "second" 1)) none).1 = .ok () ∧
      (edited.perform (later 0) service (.updateRecord (edit "third" 2)) none).1 = .ok () ∧
      replacedBy kek recordId (step 0 (edit "third" 2) edited) ≠ none ∧
      firstReading (edited.label (later 0) service
        (.updateRecord (edit "third" 2)) none).trace = some (later 0) ∧
      (edited.tables.historyOf recordId).map changedAt = [datetimeToTimestamp (later 0)] := by
  decide +kernel

theorem created_row :
    (created.tables.records.lookup recordId).map
        (fun row => (row.credentialType, row.aad, row.payload kek)) =
      some (.Login, recordAad recordId, some (payload "first")) ∧
      created.tables.passwordHistory = [] := by
  decide +kernel

theorem newLogin_created : NewLogin kek recordId created.tables where
  keyed := by
    have hrun : Run vaultStep (Tables.fresh Sample.seed)
        [{ source := .fresh Sample.seed
           label := start.label (later 0) service create none
           target := created.tables }] created.tables :=
      Run.cons (start.vaultStep_perform (later 0) service create none) (Run.nil _)
    exact historyKeyed_of_run hrun _ hrun.last_mem
  stored := by
    rcases Option.map_eq_some_iff.mp created_row.1 with ⟨row, hrow, hvalue⟩
    have hlogin : row.credentialType = .Login := congrArg Prod.fst hvalue
    have haad : row.aad = recordAad recordId := congrArg (fun p => p.2.1) hvalue
    have hpayload : row.payload kek = some (payload "first") := congrArg (fun p => p.2.2) hvalue
    exact ⟨payload "first", rfl, row, hrow, hlogin, haad, hpayload⟩
  unused := by
    unfold Tables.historyOf
    rw [created_row.2]
    rfl

/-- A change that finds an empty history is the first one. -/
theorem later_of_unused {n : Nat} {params : UpdateRecordParams} {b : Bench}
    (hunused : b.tables.historyOf recordId = []) : AtLaterSecond kek recordId (step n params b) := by
  intro _ _ _ _ _ _ _ entry hentry
  have hmem : entry ∈ b.tables.historyOf recordId := hentry
  rw [hunused] at hmem
  cases hmem

/-- A change at a second that the history has. -/
theorem not_later_of_same {n : Nat} {params : UpdateRecordParams} {b : Bench} {time : DateTime}
    (hreplaced : replacedBy kek recordId (step n params b) ≠ none)
    (hreading : firstReading (b.label (later n) service (.updateRecord params) none).trace =
      some time)
    (hhistory : (b.tables.historyOf recordId).map changedAt = [datetimeToTimestamp time]) :
    ¬ AtLaterSecond kek recordId (step n params b) := by
  intro hlater
  rcases List.map_eq_singleton_iff.mp hhistory with ⟨entry, hentry, hat⟩
  have hmem : entry ∈ b.tables.historyOf recordId := by
    rw [hentry]
    exact List.mem_singleton_self entry
  have hlt := hlater _ _ _ rfl hreplaced _ hreading entry hmem
  rw [hat] at hlt
  exact lt_irrefl _ hlt

theorem run_first : Run (loginStep kek recordId) created.tables [step 0 (edit "second" 1) created]
    edited.tables :=
  Run.cons (loginStep_after rfl rfl edits_ok.1) (Run.nil _)

/-! ### A change in every second -/

/-- A change of the password for each version, one second after the other. -/
def changes : Nat → List String → Bench → List (Step Tables LoginLabel)
  | _, [], _ => []
  | n, password :: rest, b =>
      step n (edit password n) b ::
        changes (n + 1) rest (after n (.updateRecord (edit password n)) b)

def changed : Nat → List String → Bench → Bench
  | _, [], b => b
  | n, password :: rest, b => changed (n + 1) rest (after n (.updateRecord (edit password n)) b)

/-- Every change goes through and replaces a password, at a second that the history does not have
yet. -/
def inOrder : Nat → List String → Bench → Bool
  | _, [], _ => true
  | n, password :: rest, b =>
      decide ((b.perform (later n) service (.updateRecord (edit password n)) none).1 = .ok ()) &&
        decide (firstReading (b.label (later n) service (.updateRecord (edit password n))
          none).trace = some (later n)) &&
        (b.tables.historyOf recordId).all (fun entry =>
          decide (changedAt entry < datetimeToTimestamp (later n))) &&
        (replacedBy kek recordId (step n (edit password n) b)).isSome &&
        inOrder (n + 1) rest (after n (.updateRecord (edit password n)) b)

theorem run_changes (n : Nat) (passwords : List String) (b : Bench)
    (h : inOrder n passwords b = true) :
    Run (loginStep kek recordId) b.tables (changes n passwords b) (changed n passwords b).tables ∧
      (replaced kek recordId (changes n passwords b)).length = passwords.length ∧
      ∀ e ∈ changes n passwords b, AtLaterSecond kek recordId e := by
  induction passwords generalizing n b with
  | nil => exact ⟨Run.nil _, rfl, fun e he => nomatch he⟩
  | cons password passwords ih =>
      rw [inOrder, Bool.and_eq_true, Bool.and_eq_true, Bool.and_eq_true, Bool.and_eq_true] at h
      rcases h with ⟨⟨⟨⟨hok, hreading⟩, hhistory⟩, hreplaced⟩, hrest⟩
      rcases ih _ _ hrest with ⟨hrun, hlength, hlater⟩
      refine ⟨Run.cons (loginStep_after rfl rfl (of_decide_eq_true hok)) hrun, ?_, ?_⟩
      · rcases Option.isSome_iff_exists.mp hreplaced with ⟨old, hold⟩
        unfold replaced at hlength ⊢
        rw [changes, List.filterMap_cons, hold, List.length_cons, hlength, List.length_cons]
      intro e he
      rcases List.mem_cons.mp he with hfirst | he
      · rw [hfirst]
        intro v params trace hlabel _ time htime entry hentry
        cases hlabel
        rw [← Option.some.inj ((of_decide_eq_true hreading).symm.trans htime)]
        exact of_decide_eq_true (List.all_eq_true.mp hhistory entry hentry)
      · exact hlater e he

/-- Eleven changes of the password, one second after the other. -/
theorem right_ten_eleven :
    (replaced kek recordId (changes 1 passwords created)).length = 11 ∧
      RightTen kek recordId (changes 1 passwords created) (changed 1 passwords created).tables := by
  have hlawful := lawful
  rcases run_changes 1 passwords created (by decide +kernel) with
    ⟨hrun, hlength, hlater⟩
  exact ⟨hlength, (right_ten_iff newLogin_created hrun).mpr hlater _ [] _ (by simp) hrun⟩

theorem ordered_after {done : List (Step Tables LoginLabel)} {n : Nat} {params : UpdateRecordParams}
    {b : Bench} (hlawful : LawfulCrypto) (h : Ordered kek recordId done b.tables)
    (hstep : loginStep kek recordId b.tables (step n params b).label
      (after n (.updateRecord params) b).tables)
    (hunused : b.tables.historyOf recordId = []) :
    Ordered kek recordId (done ++ [step n params b]) (after n (.updateRecord params) b).tables :=
  Ordered.step (e := step n params b) h hstep (later_of_unused hunused)

theorem not_rightTen_after {done : List (Step Tables LoginLabel)} {n : Nat}
    {params : UpdateRecordParams}
    {b : Bench} (hlawful : LawfulCrypto) (h : Ordered kek recordId done b.tables)
    (hstep : loginStep kek recordId b.tables (step n params b).label
      (after n (.updateRecord params) b).tables)
    (hnot : ¬ AtLaterSecond kek recordId (step n params b)) :
    ¬ RightTen kek recordId (done ++ [step n params b]) (after n (.updateRecord params) b).tables :=
  Ordered.not_rightTen (e := step n params b) h hstep hnot

/-- Not every sequence of changes leaves the right passwords in the right order. -/
theorem right_ten_fails :
    ¬ ∀ (t t' : Tables) (es : List (Step Tables LoginLabel)), NewLogin kek recordId t →
      Run (loginStep kek recordId) t es t' → RightTen kek recordId es t' := by
  intro hall
  have hlawful := lawful
  have hordered : Ordered kek recordId [step 0 (edit "second" 1) created] edited.tables :=
    ordered_after hlawful (ordered_new newLogin_created) (loginStep_after rfl rfl edits_ok.1)
      newLogin_created.unused
  rcases edits_ok with ⟨-, hok, hreplaced, hreading, hhistory⟩
  have hstep := loginStep_after rfl rfl hok
  have hrun : Run (loginStep kek recordId) created.tables
      [step 0 (edit "second" 1) created, step 0 (edit "third" 2) edited] twice.tables :=
    run_first.append (Run.cons hstep (Run.nil _))
  exact not_rightTen_after hlawful hordered hstep (not_later_of_same hreplaced hreading hhistory)
    (hall _ _ _ newLogin_created hrun)

end

end SameSecond

end OakKeyring
