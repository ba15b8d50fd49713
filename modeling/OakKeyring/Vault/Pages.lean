import OakKeyring.Db.Pages
import OakKeyring.Lib.Embed
import OakKeyring.Vault.List

/-!
# Listing records page by page

A page is made from the list index alone, after the index was brought up to date. The two
statements of a page are calls of their own.
-/

namespace OakKeyring

open Effect

inductive ListingCall
  | vault (c : VaultCall)
  | countRecordListPage (filter : RecordFilter)
  | listRecordPageRows (filter : RecordFilter) (sort : RecordSort) (limit offset : Nat)

def ListingCall.Answer : ListingCall → Type
  | vault c => c.Answer
  | countRecordListPage _ => Except SqliteError Nat
  | listRecordPageRows .. => Except SqliteError (List RecordListPageRow)

def ListingI : Interface where
  Call := ListingCall
  Answer := ListingCall.Answer

/-- `frequency` is what the audit log counts for each record. A statement may fail at any time, and
does where it raises an error. -/
def listingEnv [Unicode] (frequency : Uuid → Nat) : Env ListingI Tables
  | t, .vault c, answer, t' => vaultEnv t c answer t'
  | t, .countRecordListPage filter, answer, t' =>
      t' = t ∧
        (t.recordListRaises filter = false ∧ answer = .ok (t.countRecordListPage filter) ∨
          ∃ e, answer = .error e)
  | t, .listRecordPageRows filter sort limit offset, answer, t' =>
      t' = t ∧
        ((∃ page, t.recordListRaises filter = false ∧
          t.IsRecordPage frequency filter sort limit offset page ∧ answer = .ok page) ∨
          ∃ e, answer = .error e)

namespace Listing

abbrev ListingM := Fallible VaultError ListingI

def vaultCalls : Embedding VaultI ListingI where
  call := ListingCall.vault
  answer := fun _ x => x

/-- The tables are all of the state. -/
def tables : Part Tables Tables where
  get := fun t => t
  set := fun _ t => t
  get_set := fun _ _ => rfl
  set_set := fun _ _ _ => rfl
  set_get := fun _ => rfl

theorem vault_serves [Unicode] (frequency : Uuid → Nat) :
    vaultCalls.Serves tables vaultEnv (listingEnv frequency) :=
  fun _ _ _ t hstep => ⟨t, hstep, rfl⟩

def onVault {α : Type} (op : VaultM α) : ListingM α :=
  vaultCalls.fallible op

def countRecordListPage (filter : RecordFilter) : ListingM Nat :=
  Fallible.call (I := ListingI) (ListingCall.countRecordListPage filter) (fun answer => answer)
    VaultError.DatabaseError

def listRecordPageRows (filter : RecordFilter) (sort : RecordSort) (limit offset : Nat) :
    ListingM (List RecordListPageRow) :=
  Fallible.call (I := ListingI) (ListingCall.listRecordPageRows filter sort limit offset)
    (fun answer => answer) VaultError.DatabaseError

end Listing

namespace Vault

open Listing

variable [Crypto] (v : VaultService)

end Vault

end OakKeyring
