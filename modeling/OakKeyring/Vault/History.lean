import OakKeyring.Lib.Recent
import OakKeyring.Vault.Readable

/-!
# Reading the password history

The entries of a record are listed by their time, which is stored in seconds. An entry holds the
ciphertext of a whole payload, and its password is a field of that.
-/

namespace OakKeyring

open Effect Recent

structure PasswordHistory where
  id : Nat
  recordId : Uuid
  encryptedPassword : Bytes
  nonce : Nonce
  dekVersion : Nat
  changedAt : DateTime
deriving DecidableEq, Repr

def passwordHistoryOf (entry : Nat × HistoryRow) : PasswordHistory where
  id := entry.1
  recordId := entry.2.recordId
  encryptedPassword := entry.2.encryptedPassword
  nonce := entry.2.nonce
  dekVersion := entry.2.dekVersion
  changedAt := timestampToDatetime entry.2.changedAt

inductive HistoryQuery
  | getPasswordHistory (id : Uuid) (limit : Nat)
  | getPasswordHistoryById (historyId : Nat)

def HistoryQuery.Result : HistoryQuery → Type
  | getPasswordHistory _ _ => List PasswordHistory
  | getPasswordHistoryById _ => Option PasswordHistory

def HistoryI : Interface where
  Call := HistoryQuery
  Answer q := Except SqliteError q.Result

abbrev HistoryM := Fallible VaultError HistoryI

/-- The seconds by which `ORDER BY changed_at DESC` orders the entries of a record. -/
def changedAt (entry : Nat × HistoryRow) : Int :=
  entry.2.changedAt

/-- What the database may answer: it leaves entries of one second in any order. -/
def historyEnv : Env HistoryI Tables
  | t, .getPasswordHistory id limit, answer, t' =>
      t' = t ∧ ((∃ rows, NewestFirst changedAt (t.historyOf id) rows ∧
        answer = .ok ((rows.take limit).map passwordHistoryOf)) ∨ ∃ e, answer = .error e)
  | t, .getPasswordHistoryById historyId, answer, t' =>
      t' = t ∧ (answer = .ok ((t.passwordHistory.find? fun entry => entry.1 = historyId).map
        passwordHistoryOf) ∨ ∃ e, answer = .error e)

namespace Vault

def historyQuery (q : HistoryQuery) : HistoryM q.Result :=
  Fallible.call (I := HistoryI) q (fun answer => answer) VaultError.DatabaseError

section

variable [Crypto] (v : VaultService)

def getPasswordHistory (id : Uuid) : HistoryM (List PasswordHistory) :=
  if v.crypto.isUnlocked = false then throw .NotUnlocked
  else historyQuery (.getPasswordHistory id 10)

/-- The password field of the payload that an entry holds. -/
def historyPassword (entry : PasswordHistory) : Except String String := do
  let plaintext ← v.crypto.decrypt entry.encryptedPassword entry.nonce (recordAad entry.recordId)
    entry.dekVersion
  let inner ← textFields plaintext
  match inner "password" with
  | some password => .ok password
  | none => .error "password field missing in decrypted payload"

def decryptHistoryPassword (historyId : Nat) : HistoryM String := do
  if v.crypto.isUnlocked = false then throw .NotUnlocked
  let found : Option PasswordHistory ← historyQuery (.getPasswordHistoryById historyId)
  match found with
  | none => throw (.RecordNotFound Uuid.nil)
  | some entry =>
      match historyPassword v entry with
      | .ok password => return password
      | .error e => throw (.CryptoError e)

end

/-! ## What the two operations return -/

section

variable [Crypto] {kek : Bytes} {v : VaultService} {t : Tables} {id : Uuid}

/-- The entry holds the ciphertext of a payload with this password. -/
def Holds (kek : Bytes) (entry : Nat × HistoryRow) (password : String) : Prop :=
  ∃ plaintext inner,
    Crypto.aeadDecrypt entry.2.encryptedPassword entry.2.nonce (recordAad entry.2.recordId)
      (deriveDek kek entry.2.dekVersion) = .ok plaintext ∧
    textFields plaintext = .ok inner ∧ inner "password" = some password

theorem Holds.unique {entry : Nat × HistoryRow} {password password' : String}
    (h : Holds kek entry password) (h' : Holds kek entry password') : password = password' := by
  rcases h with ⟨plaintext, inner, hplain, hinner, hfield⟩
  rcases h' with ⟨plaintext', inner', hplain', hinner', hfield'⟩
  have hsame : plaintext = plaintext' := Except.ok.inj (hplain.symm.trans hplain')
  rw [hsame] at hinner
  have hfields : inner = inner' := Except.ok.inj (hinner.symm.trans hinner')
  rw [hfields] at hfield
  exact Option.some.inj (hfield.symm.trans hfield')

theorem historyPassword_eq {entry : Nat × HistoryRow} {password : String}
    (hkey : v.HoldsKey kek) (h : Holds kek entry password) :
    historyPassword v (passwordHistoryOf entry) = .ok password := by
  rcases h with ⟨plaintext, inner, hplain, hinner, hfield⟩
  have hdecrypt : v.crypto.decrypt entry.2.encryptedPassword entry.2.nonce
      (recordAad entry.2.recordId) entry.2.dekVersion = .ok plaintext := by
    unfold CryptoManager.decrypt
    rw [hkey.getDek]
    exact hplain
  simp only [historyPassword, passwordHistoryOf, hdecrypt, bind, Except.bind, hinner, hfield]

omit [Crypto] in
theorem getPasswordHistory_eq (hkey : v.HoldsKey kek) :
    getPasswordHistory v id = historyQuery (.getPasswordHistory id 10) := by
  have hunlocked : ¬ v.crypto.isUnlocked = false := by
    rw [hkey.unlocked]
    simp
  exact if_neg hunlocked

omit [Crypto] in
theorem returns_historyQuery (q : HistoryQuery) (result : q.Result) :
    (historyQuery q).run.Returns [⟨q, .ok result⟩] (.ok result) :=
  ⟨.ok result, [], rfl, rfl, rfl⟩

/-- The run in which the database answers. -/
theorem returns_decryptHistoryPassword {entry : Nat × HistoryRow} {password : String}
    (hkey : v.HoldsKey kek) (h : Holds kek entry password)
    (hfound : (t.passwordHistory.find? fun other => other.1 = entry.1) = some entry) :
    ∃ trace, (decryptHistoryPassword v entry.1).run.Returns trace (.ok password) ∧
      Path historyEnv t trace t := by
  have hunlocked : ¬ v.crypto.isUnlocked = false := by
    rw [hkey.unlocked]
    simp
  have hanswer := returns_historyQuery (.getPasswordHistoryById entry.1)
    (some (passwordHistoryOf entry))
  refine ⟨[⟨.getPasswordHistoryById entry.1, .ok (some (passwordHistoryOf entry))⟩], ?_, ?_⟩
  · unfold decryptHistoryPassword
    rw [if_neg hunlocked]
    refine returns_bind_of_ok hanswer (u := []) ?_
    simp only [historyPassword_eq hkey h]
    exact ⟨rfl, rfl⟩
  · refine ⟨t, ⟨rfl, Or.inl ?_⟩, rfl⟩
    rw [hfound]
    rfl

/-- An entry is decrypted, unless the database fails. -/
theorem wpe_decryptHistoryPassword {entry : Nat × HistoryRow} {password : String}
    (hkey : v.HoldsKey kek) (h : Holds kek entry password)
    (hfound : (t.passwordHistory.find? fun other => other.1 = entry.1) = some entry) :
    wpe historyEnv (fun p _ => p = password) (fun e _ => ∃ fault, e = .DatabaseError fault)
      (decryptHistoryPassword v entry.1) t := by
  have hunlocked : ¬ v.crypto.isUnlocked = false := by
    rw [hkey.unlocked]
    simp
  unfold decryptHistoryPassword
  rw [if_neg hunlocked]
  refine (wpe_bind _ _).mpr (wpe_call ?_ ?_)
  · rintro answer found u hanswer ⟨-, hok | ⟨e, herror⟩⟩
    · have hvalue : answer = .ok found := hanswer
      rw [hok, hfound] at hvalue
      rw [← Except.ok.inj hvalue]
      change wpe _ _ _ (match historyPassword v (passwordHistoryOf entry) with
        | .ok password => pure password
        | .error e => throw (VaultError.CryptoError e)) _
      rw [historyPassword_eq hkey h]
      rfl
    · have hvalue : answer = .ok found := hanswer
      rw [herror] at hvalue
      cases hvalue
  · intro answer e u _ _
    exact ⟨e, rfl⟩

end

end Vault

end OakKeyring
