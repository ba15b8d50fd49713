import OakKeyring.Samples.Store
import OakKeyring.Vault.Commands

/-!
# A database that answers in order

The vault environment is a relation; this is a function in it, with one fault at a chosen
operation. The identifiers, the nonces and the clock are fixed.
-/

namespace OakKeyring

open Effect Transition

/-- A database with the answers that are still to come. -/
structure Bench where
  tables : Tables
  uuids : List Uuid
  nonces : List Nonce
  /-- how many operations go through before one fails -/
  fault : Option Nat

/-- The names of a vault that is made for a run. -/
def Sample.seed : VaultSeed where
  vaultId := "550e8400-e29b-41d4-a716-446655440000"
  deviceId := "device"
  createdAt := 1767225600

namespace Bench

/-- The answers, at a fixed time. -/
def serve (now : DateTime) : Handler VaultI Bench
  | b, .db op =>
      let after := { b with fault := b.fault.bind fun n => if n = 0 then none else some (n - 1) }
      if b.fault = some 0 then (.error { message := "disk I/O error" }, after)
      else
        match op.run b.tables with
        | .ok (result, tables) => (.ok result, { after with tables := tables })
        | .error e => (.error e, after)
  | b, .now => (now, b)
  | b, .newUuid => (b.uuids.headD (Uuid.filled 0), { b with uuids := b.uuids.tail })
  | b, .newNonce =>
      (b.nonces.headD (Nonce.filled 0), { b with nonces := b.nonces.tail })

theorem serve_env {now : DateTime} {b b' : Bench} {c : VaultCall} {answer : c.Answer}
    (h : (serve now).env b c answer b') : vaultEnv b.tables c answer b'.tables := by
  have hserve : serve now b c = (answer, b') := h
  cases c with
  | db op =>
      simp only [serve] at hserve
      split at hserve
      · cases hserve
        exact Or.inr ⟨⟨_, rfl⟩, rfl⟩
      · split at hserve
        · rename_i result tables hrun
          cases hserve
          exact Or.inl ⟨result, result, hrun, DbOp.Same.refl op result, rfl⟩
        · cases hserve
          exact Or.inr ⟨⟨_, rfl⟩, rfl⟩
  | now =>
      cases hserve
      rfl
  | newUuid =>
      cases hserve
      rfl
  | newNonce =>
      cases hserve
      rfl

variable [Codec] [Serde] [Crypto]

/-- One operation of a vault service, with a fault or without. -/
def perform (now : DateTime) (v : VaultService) (command : VaultCommand) (fault : Option Nat)
    (b : Bench) : Except VaultError Unit × Bench :=
  run (serve now) (command.program v).run { b with fault := fault }

/-- The step of a run that `perform` makes. -/
def label (now : DateTime) (v : VaultService) (command : VaultCommand) (fault : Option Nat)
    (b : Bench) : VaultLabel where
  service := v
  command := command
  trace := runTrace (serve now) (command.program v).run { b with fault := fault }
  outcome := (perform now v command fault b).1

theorem vaultStep_perform (b : Bench) (now : DateTime) (v : VaultService)
    (command : VaultCommand) (fault : Option Nat) :
    vaultStep b.tables (label now v command fault b) (perform now v command fault b).2.tables := by
  refine ⟨returns_runTrace (serve now) _ { b with fault := fault }, ?_⟩
  exact (path_runTrace (serve now) _ { b with fault := fault }).map Bench.tables
    fun _ _ _ _ hstep => serve_env hstep

end Bench

/-! ## A vault with three notes -/

namespace ThreeNotes

abbrev crypto : Crypto :=
  referenceCrypto [.SecureNote "first" none, .SecureNote "second" none, .SecureNote "third" none]

/-- The service of a vault whose current key version is `version`. -/
def service (version : Nat) : VaultService where
  crypto := .fromUnlockedKeystore
    { kek := some (List.replicate 32 7)
      currentDekVersion := version }
  deviceId := "device"

def firstId : Uuid :=
  Uuid.filled 1

def secondId : Uuid :=
  Uuid.filled 2

def thirdId : Uuid :=
  Uuid.filled 3

def create (name : String) : VaultCommand :=
  .createRecord
    { credentialType := .SecureNote
      payload := .SecureNote name none
      isFavorite := false
      expiresAt := none
      tags := [] }

section

attribute [local instance] Sample.codec Sample.serde crypto

theorem lawful : LawfulCrypto :=
  referenceCrypto_lawful (by decide +kernel)

def after (command : VaultCommand) (b : Bench) : Bench :=
  (b.perform Sample.instant (service 1) command none).2

/-- Three notes under version 1, the second of them in the trash. -/
def vault : Bench :=
  after (.softDeleteRecord secondId) (after (create "third") (after (create "second")
    (after (create "first")
      { tables := .fresh Sample.seed
        uuids := [firstId, secondId, thirdId]
        nonces := [Nonce.filled 1, Nonce.filled 2, Nonce.filled 3, Nonce.filled 4, Nonce.filled 5,
          Nonce.filled 6]
        fault := none })))

end

end ThreeNotes

end OakKeyring
