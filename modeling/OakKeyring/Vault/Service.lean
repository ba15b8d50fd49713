import OakKeyring.Crypto.Manager
import OakKeyring.Db.Queries
import OakKeyring.Lib.Answers

/-!
# The vault service

An operation of the vault is a program over database operations, clock readings, fresh
identifiers and fresh nonces, and stops at the first error. The database may fail at any
operation; the tables are then as before it.
-/

namespace OakKeyring

open Effect

inductive VaultError
  | RecordNotFound (id : Uuid)
  | VersionConflict (expected actual : Nat)
  | TagAlreadyExists (name : String)
  | TagNotFound (name : String)
  | NotUnlocked
  | DatabaseError (error : SqliteError)
  | CryptoError (message : String)
  | DataError (error : DataError)
  | InvalidField (recordType : CredentialType) (field : FieldSelector)
deriving DecidableEq, Repr

def VaultError.toText : VaultError → String
  | RecordNotFound id => s!"record not found: {id.toText}"
  | VersionConflict expected actual => s!"version conflict: expected {expected}, actual {actual}"
  | TagAlreadyExists name => s!"tag already exists: {name}"
  | TagNotFound name => s!"tag not found: {name}"
  | NotUnlocked => "vault is not unlocked"
  | DatabaseError error => s!"database error: {error.message}"
  | CryptoError message => s!"crypto error: {message}"
  | DataError error => s!"data validation error: {error.toText}"
  | InvalidField recordType field =>
      s!"invalid field {field.debug} for credential type {recordType.debug}"

inductive VaultCall
  | db (op : DbOp)
  | now
  | newUuid
  | newNonce

def VaultCall.Answer : VaultCall → Type
  | db op => Except SqliteError op.Result
  | now => DateTime
  | newUuid => Uuid
  | newNonce => Nonce

def VaultI : Interface where
  Call := VaultCall
  Answer := VaultCall.Answer

/-- Operations of the vault service. -/
abbrev VaultM := Fallible VaultError VaultI

/-- What the database, the clock and the random source may answer. -/
def vaultEnv : Env VaultI Tables
  | t, .db op, answer, t' =>
      (∃ expected result, op.run t = .ok (expected, t') ∧ op.Same expected result ∧
        answer = .ok result) ∨
      (∃ e, answer = .error e) ∧ t' = t
  | t, .now, _, t' => t' = t
  | t, .newUuid, _, t' => t' = t
  | t, .newNonce, _, t' => t' = t

/-- `VaultServiceImpl` without its connection. -/
structure VaultService where
  crypto : CryptoManager
  deviceId : String
deriving DecidableEq, Repr

namespace Vault

/-- One query or statement; a failure is a `VaultError`. -/
def query (op : DbOp) : VaultM op.Result :=
  Fallible.call (I := VaultI) (VaultCall.db op) (fun answer => answer) VaultError.DatabaseError

def now : VaultM DateTime :=
  Fallible.ask (I := VaultI) VaultCall.now

def newUuid : VaultM Uuid :=
  Fallible.ask (I := VaultI) VaultCall.newUuid

def newNonce : VaultM Nonce :=
  Fallible.ask (I := VaultI) VaultCall.newNonce

/-- `map_err(VaultError::CryptoError)?`. -/
def crypto {α : Type} (result : Except String α) : VaultM α :=
  match result with
  | .ok a => pure a
  | .error e => throw (VaultError.CryptoError e)

/-- The conversion of a validation failure by `?`. -/
def checked {α : Type} (result : Except OakKeyring.DataError α) : VaultM α :=
  match result with
  | .ok a => pure a
  | .error e => throw (VaultError.DataError e)

/-- `ok_or(..)?`. -/
def required {α : Type} (value : Option α) (e : VaultError) : VaultM α :=
  match value with
  | some a => pure a
  | none => throw e

def requireUnlocked (v : VaultService) [Crypto] : VaultM Unit :=
  if v.crypto.isUnlocked then pure () else throw .NotUnlocked

/-! ## Rules -/

section

variable {α : Type} {Q : α → Tables → Prop} {E : VaultError → Tables → Prop} {t : Tables}

/-- Rule for a query or a statement. -/
theorem wpe_query {op : DbOp} {Q : op.Result → Tables → Prop}
    (hok : ∀ expected result t', op.run t = .ok (expected, t') → op.Same expected result →
      Q result t')
    (hfault : ∀ e, E (.DatabaseError e) t) : wpe vaultEnv Q E (query op) t := by
  refine wpe_call ?_ ?_
  · intro answer result t' hanswer hstep
    have hvalue : answer = .ok result := hanswer
    rcases hstep with ⟨expected, result', hrun, hsame, heq⟩ | ⟨⟨e, heq⟩, -⟩
    · rw [heq] at hvalue
      cases hvalue
      exact hok expected result t' hrun hsame
    · rw [heq] at hvalue
      cases hvalue
  · intro answer e t' hanswer hstep
    have hvalue : answer = .error e := hanswer
    rcases hstep with ⟨expected, result', hrun, hsame, heq⟩ | ⟨⟨e', heq⟩, hsame⟩
    · rw [heq] at hvalue
      cases hvalue
    · rw [hsame]
      exact hfault e

/-- Rule for a statement that always goes through when there is no fault. -/
theorem wpe_query_of_run {op : DbOp} {Q : op.Result → Tables → Prop} {expected : op.Result}
    {t' : Tables} (hrun : op.run t = .ok (expected, t'))
    (hok : ∀ result, op.Same expected result → Q result t')
    (hfault : ∀ e, E (.DatabaseError e) t) : wpe vaultEnv Q E (query op) t := by
  refine wpe_query ?_ hfault
  intro expected' result u hrun' hsame
  rw [hrun] at hrun'
  cases hrun'
  exact hok result hsame

theorem wpe_now {Q : DateTime → Tables → Prop} (h : ∀ time, Q time t) :
    wpe vaultEnv Q E now t := by
  refine wpe_ask ?_
  intro time t' hstep
  have hsame : t' = t := hstep
  rw [hsame]
  exact h time

theorem wpe_newUuid {Q : Uuid → Tables → Prop} (h : ∀ id, Q id t) :
    wpe vaultEnv Q E newUuid t := by
  refine wpe_ask ?_
  intro id t' hstep
  have hsame : t' = t := hstep
  rw [hsame]
  exact h id

theorem wpe_newNonce {Q : Nonce → Tables → Prop} (h : ∀ nonce, Q nonce t) :
    wpe vaultEnv Q E newNonce t := by
  refine wpe_ask ?_
  intro nonce t' hstep
  have hsame : t' = t := hstep
  rw [hsame]
  exact h nonce

end

section

variable {α S : Type} {step : Env VaultI S} {Q : α → S → Prop} {E : VaultError → S → Prop} {t : S}

theorem wpe_crypto {result : Except String α} (hok : ∀ a, result = .ok a → Q a t)
    (herror : ∀ e, result = .error e → E (.CryptoError e) t) :
    wpe step Q E (crypto result) t := by
  cases result with
  | ok a => exact hok a rfl
  | error e => exact herror e rfl

theorem wpe_checked {result : Except OakKeyring.DataError α} (hok : ∀ a, result = .ok a → Q a t)
    (herror : ∀ e, result = .error e → E (.DataError e) t) :
    wpe step Q E (checked result) t := by
  cases result with
  | ok a => exact hok a rfl
  | error e => exact herror e rfl

theorem wpe_required {value : Option α} {e : VaultError} (hok : ∀ a, value = some a → Q a t)
    (hnone : value = none → E e t) : wpe step Q E (required value e) t := by
  cases value with
  | some a => exact hok a rfl
  | none => exact hnone rfl

theorem wpe_requireUnlocked [Crypto] {v : VaultService} {Q : Unit → S → Prop}
    (hok : v.crypto.isUnlocked = true → Q () t) (hlocked : E .NotUnlocked t) :
    wpe step Q E (requireUnlocked v) t := by
  unfold requireUnlocked
  by_cases hopen : v.crypto.isUnlocked = true
  · rw [if_pos hopen]
    exact hok hopen
  · rw [if_neg hopen]
    exact hlocked

end

/-! ## Runs without a fault -/

section

variable {t t' : Tables}

theorem answers_query {op : DbOp} {expected result : op.Result}
    (hrun : op.run t = .ok (expected, t')) (hsame : op.Same expected result) :
    Answers vaultEnv t (query op) result t' := by
  have hstep : vaultEnv t (.db op) (.ok result) t' := Or.inl ⟨expected, result, hrun, hsame, rfl⟩
  exact answers_call rfl hstep

end

end Vault

end OakKeyring
