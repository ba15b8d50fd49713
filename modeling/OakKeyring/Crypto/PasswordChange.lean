import OakKeyring.Lib.Logged
import OakKeyring.Samples.Keystore

/-!
# Changing the master password

Until the rename the old password opens the directory, and after it the new one does. A failure
after the rename is reported like one before it, although the old password is gone by then.
-/

namespace OakKeyring

open Effect

namespace KeyStore

@[simp] theorem ok_bind {ε α β : Type} (a : α) (f : α → Except ε β) :
    (Except.ok a >>= f) = f a := rfl

theorem bind_eq_ok {ε α β : Type} {x : Except ε α} {f : α → Except ε β} {b : β} :
    (x >>= f) = .ok b ↔ ∃ a, x = .ok a ∧ f a = .ok b := by
  cases x with
  | error e =>
      constructor
      · intro h
        cases h
      · rintro ⟨a, h, -⟩
        cases h
  | ok a =>
      constructor
      · intro h
        exact ⟨a, rfl, h⟩
      · rintro ⟨a', h, hrest⟩
        cases h
        exact hrest

section Calls

variable {α S M : Type} {Q : α → KeystoreDir → Prop} {E : String → KeystoreDir → Prop}
  {d : KeystoreDir}

theorem wpe_value {step : Env KeystoreI S} {result : Except String α} {Q : α → S → Prop}
    {E : String → S → Prop} {s : S} :
    wpe step Q E (value result) s ↔
      match result with
      | .ok a => Q a s
      | .error e => E e s := by
  cases result with
  | ok a => exact Iff.rfl
  | error e => exact Iff.rfl

theorem wpe_value_of {step : Env KeystoreI S} {result : Except String α} {Q : α → S → Prop}
    {E : String → S → Prop} {s : S} (hok : ∀ a, result = .ok a → Q a s)
    (herror : ∀ e, result = .error e → E e s) : wpe step Q E (value result) s := by
  cases result with
  | ok a => exact hok a rfl
  | error e => exact herror e rfl

/-- A read in a directory where nothing fails. -/
theorem wpe_readToString_unfailing {path : String} {file : KeystoreFile}
    {Q : String → KeystoreDir → Prop} (hfile : d.lookup path = some file) :
    wpe unfailingKeystoreEnv Q E (readToString path) d ↔ Q file.content d := by
  have hstep : ∀ (x : Except String String) (d' : KeystoreDir),
      unfailingKeystoreEnv d (.readToString path) x d' ↔ d' = d ∧ x = .ok file.content := by
    intro x d'
    unfold unfailingKeystoreEnv
    simp only [hfile]
    exact Iff.rfl
  constructor
  · intro h
    exact h (.ok file.content) d ((hstep _ d).mpr ⟨rfl, rfl⟩)
  · intro h x d' hx
    rcases (hstep x d').mp hx with ⟨hd, hvalue⟩
    rw [hd, hvalue]
    exact h

theorem wpe_readToString_missing {path : String} {Q : String → KeystoreDir → Prop}
    (hfile : d.lookup path = none) (h : ∀ e, E e d) :
    wpe unfailingKeystoreEnv Q E (readToString path) d := by
  refine wpe_call ?_ ?_
  · intro x a d' hview hstep
    unfold unfailingKeystoreEnv at hstep
    simp only at hstep
    rw [hfile] at hstep
    rcases hstep with ⟨-, e, herror⟩
    rw [herror] at hview
    cases hview
  · intro x e d' hview hstep
    have hd : d' = d := hstep.1
    rw [hd]
    exact h e

theorem wpe_lockMemory_unfailing {Q : Unit → KeystoreDir → Prop} :
    wpe unfailingKeystoreEnv Q E lockMemory d ↔ Q () d := by
  constructor
  · intro h
    exact h (.ok ()) d ⟨rfl, rfl⟩
  · intro h x d' hstep
    rw [hstep.1, hstep.2]
    exact h

end Calls

section Opening

variable [Codec] [Crypto] [Argon2] [ValueJson]

/-! ## What opens a file -/

/-- The secret key in a file of the given content, with what is kept of the document. -/
def readKey (content cmk : String) : Except String (JsonValue × Argon2Params × Bytes) := do
  let data ← fromStr content
  let (salt, params) ← kdfOf data
  let wrappingKey ← argon2id (utf8 cmk) salt params
  let (wrapped, nonce) ← wrappedOf data
  let sk ← unwrapKey wrapped nonce wrappingKey
  return (data, params, sk)

/-- The file opens with a password to a secret key. -/
def Opens (content cmk : String) (sk : Bytes) : Prop :=
  ∃ data params, readKey content cmk = .ok (data, params, sk)

theorem Opens.unique {content cmk : String} {sk sk' : Bytes} (h : Opens content cmk sk)
    (h' : Opens content cmk sk') : sk = sk' := by
  rcases h with ⟨data, params, h⟩
  rcases h' with ⟨data', params', h'⟩
  rw [h] at h'
  cases h'
  rfl

/-- The directory is unlocked with the password, to the keys that the secret key gives. -/
def Unlocks (d : KeystoreDir) (cmk : String) (sk : Bytes) : Prop :=
  wpe unfailingKeystoreEnv
    (fun (keystore : UnlockedKeyStore) _ =>
      keystore.sk = sk ∧ keystore.keystore.kek = some (deriveKek sk))
    (fun _ _ => False) (unlock cmk) d

/-- The password does not unlock the directory. -/
def Refuses (d : KeystoreDir) (cmk : String) : Prop :=
  wpe unfailingKeystoreEnv (fun _ _ => False) (fun _ _ => True) (unlock cmk) d

theorem wpe_openSecretKey_unfailing {cmk : String} {d : KeystoreDir} {file : KeystoreFile}
    {Q : JsonValue × Argon2Params × Bytes → KeystoreDir → Prop} {E : String → KeystoreDir → Prop}
    (hfile : d.lookup WRAPPED_KEY_FILE = some file) :
    wpe unfailingKeystoreEnv Q E (openSecretKey cmk) d ↔
      match readKey file.content cmk with
      | .ok r => Q r d
      | .error e => E e d := by
  unfold openSecretKey readKey deriveKeyLocked
  -- each step of the unlock is one of the steps of `readKey`
  rw [wpe_bind, wpe_readToString_unfailing hfile, wpe_bind, wpe_value]
  cases fromStr file.content with
  | error e => exact Iff.rfl
  | ok data =>
      simp only [ok_bind]
      rw [wpe_bind, wpe_value]
      cases kdfOf data with
      | error e => exact Iff.rfl
      | ok kdf =>
          simp only [ok_bind]
          rw [wpe_bind, wpe_bind, wpe_lockMemory_unfailing, wpe_value]
          cases argon2id (utf8 cmk) kdf.1 kdf.2 with
          | error e => exact Iff.rfl
          | ok key =>
              simp only [ok_bind]
              rw [wpe_bind, wpe_value]
              cases wrappedOf data with
              | error e => exact Iff.rfl
              | ok wrapped =>
                  simp only [ok_bind]
                  rw [wpe_bind, wpe_value]
                  cases unwrapKey wrapped.1 wrapped.2 key with
                  | error e => exact Iff.rfl
                  | ok sk => exact Iff.rfl

/-- What `unlock` does after the secret key is open. -/
theorem wpe_unlock_unfailing {cmk : String} {d : KeystoreDir} {file : KeystoreFile}
    {Q : UnlockedKeyStore → KeystoreDir → Prop} {E : String → KeystoreDir → Prop}
    (hfile : d.lookup WRAPPED_KEY_FILE = some file) :
    wpe unfailingKeystoreEnv Q E (unlock cmk) d ↔
      match readKey file.content cmk with
      | .ok (data, _, sk) => ∀ deviceId, Q (unlockedWith data sk deviceId) d
      | .error e => E e d := by
  unfold unlock
  rw [wpe_bind, wpe_openSecretKey_unfailing hfile]
  cases readKey file.content cmk with
  | error e => exact Iff.rfl
  | ok r =>
      simp only
      rw [wpe_bind, wpe_lockMemory_unfailing, wpe_bind, wpe_lockMemory_unfailing]
      constructor
      · intro h deviceId
        exact h deviceId d rfl
      · intro h deviceId d' hstep
        have hd : d' = d := hstep
        rw [hd]
        exact h deviceId

theorem wpe_unlock_missing {cmk : String} {d : KeystoreDir}
    {Q : UnlockedKeyStore → KeystoreDir → Prop} {E : String → KeystoreDir → Prop}
    (hfile : d.lookup WRAPPED_KEY_FILE = none) :
    wpe unfailingKeystoreEnv Q E (unlock cmk) d ↔ ∀ e, E e d := by
  constructor
  · intro h e
    have hread : unfailingKeystoreEnv d (.readToString WRAPPED_KEY_FILE) (Except.error e) d := by
      unfold unfailingKeystoreEnv
      simp only [hfile]
      exact ⟨trivial, e, rfl⟩
    exact h (.error e) d hread
  · intro h
    unfold unlock openSecretKey
    rw [wpe_bind, wpe_bind]
    exact wpe_readToString_missing hfile h

theorem unlocks_iff {d : KeystoreDir} {cmk : String} {sk : Bytes} :
    Unlocks d cmk sk ↔ ∃ file, d.lookup WRAPPED_KEY_FILE = some file ∧
      Opens file.content cmk sk := by
  unfold Unlocks
  cases hfile : d.lookup WRAPPED_KEY_FILE with
  | none =>
      -- without a file nothing is unlocked
      rw [wpe_unlock_missing hfile]
      constructor
      · intro h
        exact (h "").elim
      · rintro ⟨file, hsome, -⟩
        cases hsome
  | some file =>
      rw [wpe_unlock_unfailing hfile]
      constructor
      · intro h
        cases hread : readKey file.content cmk with
        | error e =>
            rw [hread] at h
            exact h.elim
        | ok r =>
            rcases r with ⟨data, params, sk'⟩
            rw [hread] at h
            -- the secret key does not depend on the device
            have hsk : sk' = sk := (h .nil).1
            rw [hsk] at hread
            exact ⟨file, rfl, data, params, hread⟩
      · rintro ⟨file', hsome, data, params, hread⟩
        rw [Option.some.inj hsome, hread]
        intro deviceId
        exact ⟨rfl, rfl⟩

theorem refuses_iff {d : KeystoreDir} {cmk : String} :
    Refuses d cmk ↔ ∀ file sk, d.lookup WRAPPED_KEY_FILE = some file →
      ¬ Opens file.content cmk sk := by
  unfold Refuses
  cases hfile : d.lookup WRAPPED_KEY_FILE with
  | none =>
      rw [wpe_unlock_missing hfile]
      constructor
      · intro _ file sk hsome
        cases hsome
      · intro _ _
        trivial
  | some file =>
      rw [wpe_unlock_unfailing hfile]
      constructor
      · rintro h file' sk hsome ⟨data, params, hread⟩
        rw [Option.some.inj hsome, hread] at h
        exact h .nil
      · intro h
        cases hread : readKey file.content cmk with
        | error e => trivial
        | ok r => exact absurd ⟨r.1, r.2.1, hread⟩ (h file r.2.2 rfl)

/-! ## The new file -/

omit [Crypto] [Argon2] [ValueJson] in
/-- The parameters are 32-bit numbers. -/
theorem kdfOf_lt {data : JsonValue} {salt : Salt} {params : Argon2Params}
    (h : kdfOf data = .ok (salt, params)) :
    params.mCost < 2 ^ 32 ∧ params.tCost < 2 ^ 32 ∧ params.pCost < 2 ^ 32 := by
  have hmod : ∀ n, n % 2 ^ 32 < 2 ^ 32 := fun n => Nat.mod_lt n (by decide)
  unfold kdfOf at h
  rcases bind_eq_ok.mp h with ⟨version, -, h⟩
  split at h
  · cases h
  rcases bind_eq_ok.mp h with ⟨algorithm, -, h⟩
  split at h
  · cases h
  rcases bind_eq_ok.mp h with ⟨text, -, h⟩
  rcases bind_eq_ok.mp h with ⟨bytes, -, h⟩
  rcases bind_eq_ok.mp h with ⟨salt', -, h⟩
  rcases bind_eq_ok.mp h with ⟨timeCost, -, h⟩
  rcases bind_eq_ok.mp h with ⟨memoryCost, -, h⟩
  rcases bind_eq_ok.mp h with ⟨parallelism, -, h⟩
  cases h
  exact ⟨hmod memoryCost, hmod timeCost, hmod parallelism⟩

omit [Crypto] [Argon2] [ValueJson] in
theorem kdfOf_wrappedKeyJson [LawfulBase64] {wrapped : Bytes} {nonce : Nonce} {salt : Salt}
    {params : Argon2Params} {createdAt : DateTime} {language : String}
    (h : params.mCost < 2 ^ 32 ∧ params.tCost < 2 ^ 32 ∧ params.pCost < 2 ^ 32) :
    kdfOf (wrappedKeyJson wrapped nonce salt params createdAt language) = .ok (salt, params) := by
  have hsalt : saltOf salt.bytes = .ok salt := by
    unfold saltOf
    rw [dif_pos salt.length_bytes]
  have hdecode := LawfulBase64.base64Decode_base64Encode salt.bytes
  have hparams : ({ mCost := params.mCost % 2 ^ 32
                    tCost := params.tCost % 2 ^ 32
                    pCost := params.pCost % 2 ^ 32 } : Argon2Params) = params := by
    rw [Nat.mod_eq_of_lt h.1, Nat.mod_eq_of_lt h.2.1, Nat.mod_eq_of_lt h.2.2]
  have hfields : kdfOf (wrappedKeyJson wrapped nonce salt params createdAt language) = do
      let bytes ← base64Decode (base64Encode salt.bytes)
      let salt ← saltOf bytes
      return (salt,
        { mCost := params.mCost % 2 ^ 32
          tCost := params.tCost % 2 ^ 32
          pCost := params.pCost % 2 ^ 32 }) := rfl
  rw [hfields, hdecode, ok_bind, hsalt, ok_bind, hparams]
  rfl

omit [Crypto] [Argon2] [ValueJson] in
theorem wrappedOf_wrappedKeyJson [LawfulBase64] {wrapped : Bytes} {nonce : Nonce} {salt : Salt}
    {params : Argon2Params} {createdAt : DateTime} {language : String} :
    wrappedOf (wrappedKeyJson wrapped nonce salt params createdAt language) =
      .ok (wrapped, nonce) := by
  have hnonce : nonceOf nonce.bytes = .ok nonce := by
    unfold nonceOf
    rw [dif_pos nonce.length_bytes]
  have hfields : wrappedOf (wrappedKeyJson wrapped nonce salt params createdAt language) = do
      let wrapped ← base64Decode (base64Encode wrapped)
      let bytes ← base64Decode (base64Encode nonce.bytes)
      let nonce ← nonceOf bytes
      return (wrapped, nonce) := rfl
  rw [hfields, LawfulBase64.base64Decode_base64Encode, ok_bind,
    LawfulBase64.base64Decode_base64Encode, ok_bind, hnonce]
  rfl

omit [Crypto] [Argon2] [ValueJson] in
theorem distinct_wrappedKeyJson {wrapped : Bytes} {nonce : Nonce} {salt : Salt}
    {params : Argon2Params} {createdAt : DateTime} {language : String} :
    (wrappedKeyJson wrapped nonce salt params createdAt language).Distinct := by
  refine .object (by simp) ?_
  intro f hf
  simp only [List.mem_cons, List.not_mem_nil, or_false] at hf
  rcases hf with hf | hf | hf | hf | hf | hf | hf
  · rw [hf]
    exact .number _
  · rw [hf]
    exact .string _
  · rw [hf]
    exact .string _
  · rw [hf]
    exact .string _
  · rw [hf]
    refine .object (by simp) ?_
    intro g hg
    simp only [List.mem_cons, List.not_mem_nil, or_false] at hg
    rcases hg with hg | hg | hg | hg | hg | hg
    · rw [hg]
      exact .string _
    · rw [hg]
      exact .string _
    · rw [hg]
      exact .number _
    · rw [hg]
      exact .number _
    · rw [hg]
      exact .number _
    · rw [hg]
      exact .number _
  · rw [hf]
    exact .string _
  · rw [hf]
    exact .string _

/-- Where the parts of an opened file come from. -/
theorem readKey_ok {content cmk : String} {data : JsonValue} {params : Argon2Params} {sk : Bytes}
    (h : readKey content cmk = .ok (data, params, sk)) :
    fromStr content = .ok data ∧ (∃ salt, kdfOf data = .ok (salt, params)) ∧ sk.length = 32 := by
  unfold readKey at h
  rcases bind_eq_ok.mp h with ⟨data', hdata, h⟩
  rcases bind_eq_ok.mp h with ⟨⟨salt, params'⟩, hkdf, h⟩
  rcases bind_eq_ok.mp h with ⟨key, -, h⟩
  rcases bind_eq_ok.mp h with ⟨⟨wrapped, nonce⟩, -, h⟩
  rcases bind_eq_ok.mp h with ⟨sk', hsk, h⟩
  cases h
  refine ⟨hdata, ⟨salt, hkdf⟩, ?_⟩
  unfold unwrapKey at hsk
  rcases bind_eq_ok.mp hsk with ⟨plaintext, -, hsk⟩
  split at hsk
  · cases hsk
  · rename_i hlength
    cases hsk
    exact not_not.mp hlength

/-- The content that a password change writes for the secret key. -/
structure Rewrapped (newCmk : String) (params : Argon2Params) (sk : Bytes) (salt : Salt)
    (content : String) : Prop where
  bound : params.mCost < 2 ^ 32 ∧ params.tCost < 2 ^ 32 ∧ params.pCost < 2 ^ 32
  length_sk : sk.length = 32
  wrapped : ∃ key nonce wrapped createdAt language,
    argon2id (utf8 newCmk) salt params = .ok key ∧ wrapKey sk key nonce = .ok wrapped ∧
      toStringPretty (wrappedKeyJson wrapped nonce salt params createdAt language) = .ok content

section Lawful

variable [LawfulBase64] [LawfulValueJson] {newCmk : String} {params : Argon2Params} {sk : Bytes}
  {salt : Salt} {content : String}

theorem readKey_printed (cmk : String) (hbound : params.mCost < 2 ^ 32 ∧ params.tCost < 2 ^ 32 ∧
    params.pCost < 2 ^ 32) {wrapped : Bytes} {nonce : Nonce} {createdAt : DateTime}
    {language : String} (hprint : toStringPretty
      (wrappedKeyJson wrapped nonce salt params createdAt language) = .ok content) :
    readKey content cmk = do
      let key ← argon2id (utf8 cmk) salt params
      let sk ← unwrapKey wrapped nonce key
      return (wrappedKeyJson wrapped nonce salt params createdAt language, params, sk) := by
  unfold readKey
  rw [LawfulValueJson.fromStr_toStringPretty distinct_wrappedKeyJson hprint, ok_bind,
    kdfOf_wrappedKeyJson hbound, ok_bind]
  simp only
  cases argon2id (utf8 cmk) salt params with
  | error e => rfl
  | ok key =>
      rw [ok_bind, ok_bind, wrappedOf_wrappedKeyJson, ok_bind]

/-- The new password opens what was written. -/
theorem Rewrapped.opens [LawfulCrypto] (h : Rewrapped newCmk params sk salt content) :
    Opens content newCmk sk := by
  rcases h.wrapped with ⟨key, nonce, wrapped, createdAt, language, hkey, hwrapped, hprint⟩
  refine ⟨wrappedKeyJson wrapped nonce salt params createdAt language, params, ?_⟩
  rw [readKey_printed _ h.bound hprint, hkey, ok_bind]
  have hplain : Crypto.aeadDecrypt wrapped nonce [] key = .ok sk :=
    LawfulCrypto.decrypt_encrypt hwrapped
  have hsk : unwrapKey wrapped nonce key = .ok sk := by
    unfold unwrapKey
    rw [hplain, ok_bind, if_neg (not_not.mpr h.length_sk)]
    rfl
  rw [hsk]
  rfl

theorem Rewrapped.opens_of_same [LawfulCrypto] (h : Rewrapped newCmk params sk salt content)
    {cmk : String}
    (hsame : argon2id (utf8 cmk) salt params = argon2id (utf8 newCmk) salt params) :
    Opens content cmk sk := by
  rcases h.opens with ⟨data, params', hread⟩
  rcases h.wrapped with ⟨key, nonce, wrapped, createdAt, language, -, -, hprint⟩
  rw [readKey_printed _ h.bound hprint] at hread
  refine ⟨data, params', ?_⟩
  rw [readKey_printed _ h.bound hprint, hsame]
  exact hread

/-- Another password opens it when its key is the same. -/
theorem Rewrapped.opens_iff [LawfulCrypto] [AeadAuthentic]
    (h : Rewrapped newCmk params sk salt content) {cmk : String} :
    (∃ sk', Opens content cmk sk') ↔
      argon2id (utf8 cmk) salt params = argon2id (utf8 newCmk) salt params := by
  rcases h.wrapped with ⟨key, nonce, wrapped, createdAt, language, hkey, hwrapped, hprint⟩
  constructor
  · rintro ⟨sk', data, params', hread⟩
    rw [readKey_printed _ h.bound hprint] at hread
    rcases bind_eq_ok.mp hread with ⟨key', hkey', hread⟩
    rcases bind_eq_ok.mp hread with ⟨plain, hplain, -⟩
    rw [hkey', hkey]
    by_contra hne
    have hother : key' ≠ key := fun heq => hne (congrArg Except.ok heq)
    rcases AeadAuthentic.wrong_key hwrapped hother with ⟨e, herror⟩
    unfold unwrapKey at hplain
    rw [herror] at hplain
    cases hplain
  · intro hsame
    exact ⟨sk, h.opens_of_same hsame⟩

end Lawful

/-! ## A run of a change -/

/-- What a run shows of the drawn salt and of the permissions. -/
structure ChangeNotes where
  salt : Option Salt
  denied : Bool
  finished : Bool

/-- One call and its answer, noted. -/
def ChangeNotes.note (m : ChangeNotes) : Event KeystoreI → ChangeNotes
  | ⟨.generateSalt, salt⟩ => { m with salt := some salt }
  | ⟨.metadata _, .error _⟩ => { m with denied := true }
  | ⟨.setPermissions _ _, .error _⟩ => { m with denied := true }
  | ⟨.setPermissions _ _, .ok _⟩ => { m with finished := true }
  | _ => m

def ChangeNotes.empty : ChangeNotes where
  salt := none
  denied := false
  finished := false

/-- The notes on a trace. -/
def notes (trace : List (Event KeystoreI)) : ChangeNotes :=
  trace.foldl ChangeNotes.note .empty

abbrev notedEnv : Env KeystoreI (KeystoreDir × ChangeNotes) :=
  observing keystoreEnv ChangeNotes.note

section Steps

variable {d : KeystoreDir} {m : ChangeNotes} {cmk : String}

omit [Codec] [Crypto] [Argon2] [ValueJson] in
theorem wpe_lockMemory {Q : Unit → KeystoreDir × ChangeNotes → Prop}
    {E : String → KeystoreDir × ChangeNotes → Prop} (hok : Q () (d, m)) (herror : ∀ e, E e (d, m)) :
    wpe notedEnv Q E lockMemory (d, m) := by
  refine wpe_call ?_ ?_
  · rintro x a ⟨d', m'⟩ - ⟨hd, hm⟩
    have hd : d' = d := hd
    have hm : m' = m := hm
    rw [hd, hm]
    exact hok
  · rintro x e ⟨d', m'⟩ - ⟨hd, hm⟩
    have hd : d' = d := hd
    have hm : m' = m := hm
    rw [hd, hm]
    exact herror e

omit [Codec] [Crypto] [Argon2] [ValueJson] in
theorem wpe_readToString {path : String} {Q : String → KeystoreDir × ChangeNotes → Prop}
    {E : String → KeystoreDir × ChangeNotes → Prop}
    (hok : ∀ file, d.lookup path = some file → Q file.content (d, m)) (herror : ∀ e, E e (d, m)) :
    wpe notedEnv Q E (readToString path) (d, m) := by
  refine wpe_call ?_ ?_
  · rintro x content ⟨d', m'⟩ hview ⟨hstep, hm⟩
    have hm : m' = m := hm
    have hd : d' = d := hstep.1
    rw [hd, hm]
    rcases hstep.2 with ⟨file, hfile, hvalue⟩ | ⟨e, hvalue⟩
    · have hcontent : file.content = content := Except.ok.inj (hvalue.symm.trans hview)
      rw [← hcontent]
      exact hok file hfile
    · rw [hvalue] at hview
      cases hview
  · rintro x e ⟨d', m'⟩ - ⟨hstep, hm⟩
    have hm : m' = m := hm
    have hd : d' = d := hstep.1
    rw [hd, hm]
    exact herror e

/-- What is opened is what the file holds; nothing changes. -/
theorem wpe_openSecretKey :
    wpe notedEnv
      (fun r u => u = (d, m) ∧ ∃ file, d.lookup WRAPPED_KEY_FILE = some file ∧
        readKey file.content cmk = .ok r)
      (fun _ u => u = (d, m)) (openSecretKey cmk) (d, m) := by
  unfold openSecretKey deriveKeyLocked
  refine (wpe_bind _ _).mpr (wpe_readToString (fun file hfile => ?_) fun _ => rfl)
  refine (wpe_bind _ _).mpr (wpe_value_of (fun data hdata => ?_) fun _ _ => rfl)
  refine (wpe_bind _ _).mpr (wpe_value_of (fun ⟨salt, params⟩ hkdf => ?_) fun _ _ => rfl)
  refine (wpe_bind _ _).mpr ((wpe_bind _ _).mpr (wpe_lockMemory ?_ fun _ => rfl))
  refine wpe_value_of (fun key hkey => ?_) fun _ _ => rfl
  refine (wpe_bind _ _).mpr (wpe_value_of (fun ⟨wrapped, nonce⟩ hwrapped => ?_) fun _ _ => rfl)
  refine (wpe_bind _ _).mpr (wpe_value_of (fun sk hsk => ?_) fun _ _ => rfl)
  refine ⟨rfl, file, hfile, ?_⟩
  unfold readKey
  rw [hdata, ok_bind, hkdf, ok_bind]
  simp only [hkey, hwrapped, hsk, ok_bind]
  rfl

/-- What is to be written holds the secret key under the new password and the drawn salt. -/
theorem wpe_rewrap {data : JsonValue} {params : Argon2Params} {sk : Bytes}
    (hbound : params.mCost < 2 ^ 32 ∧ params.tCost < 2 ^ 32 ∧ params.pCost < 2 ^ 32)
    (hlength : sk.length = 32) :
    wpe notedEnv
      (fun content u => ∃ salt, u = (d, { m with salt := some salt }) ∧
        Rewrapped cmk params sk salt content)
      (fun _ u => ∃ salt, u = (d, { m with salt := salt })) (rewrap data params sk cmk)
      (d, m) := by
  unfold rewrap deriveKeyLocked
  refine (wpe_bind _ _).mpr (wpe_ask ?_)
  rintro salt ⟨d', m'⟩ ⟨hd, hm⟩
  have hd : d' = d := hd
  have hm : m' = { m with salt := some salt } := hm
  rw [hd, hm]
  refine (wpe_bind _ _).mpr ((wpe_bind _ _).mpr (wpe_lockMemory ?_ fun _ => ⟨some salt, rfl⟩))
  refine wpe_value_of (fun key hkey => ?_) fun _ _ => ⟨some salt, rfl⟩
  refine (wpe_bind _ _).mpr (wpe_ask ?_)
  rintro nonce ⟨d₁, m₁⟩ ⟨hd₁, hm₁⟩
  have hd₁ : d₁ = d := hd₁
  have hm₁ : m₁ = { m with salt := some salt } := hm₁
  rw [hd₁, hm₁]
  refine (wpe_bind _ _).mpr (wpe_value_of (fun wrapped hwrapped => ?_) fun _ _ => ⟨some salt, rfl⟩)
  refine (wpe_bind _ _).mpr (wpe_ask ?_)
  rintro createdAt ⟨d₂, m₂⟩ ⟨hd₂, hm₂⟩
  have hd₂ : d₂ = d := hd₂
  have hm₂ : m₂ = { m with salt := some salt } := hm₂
  rw [hd₂, hm₂]
  refine wpe_value_of (fun content hprint => ?_) fun _ _ => ⟨some salt, rfl⟩
  refine ⟨salt, rfl, hbound, hlength, key, nonce, wrapped, createdAt, _, hkey, hwrapped, hprint⟩

omit [Codec] [Crypto] [Argon2] [ValueJson] in
/-- The file that is unlocked is not touched by the temporary one. -/
theorem wpe_writeTemp {content : String} :
    wpe notedEnv
      (fun _ u => u.2 = m ∧ u.1.lookup WRAPPED_KEY_FILE = d.lookup WRAPPED_KEY_FILE ∧
        ∃ file : KeystoreFile, u.1.lookup TEMP_FILE = some file ∧ file.content = content)
      (fun _ u => u.2 = m ∧ u.1.lookup WRAPPED_KEY_FILE = d.lookup WRAPPED_KEY_FILE)
      (writeTemp content) (d, m) := by
  -- the temporary file has a name of its own
  have hne : WRAPPED_KEY_FILE ≠ TEMP_FILE := by decide
  unfold writeTemp
  refine (wpe_bind _ _).mpr (wpe_call ?_ ?_)
  · rintro x a ⟨d₁, m₁⟩ - ⟨hcreate, hm₁⟩
    have hm₁ : m₁ = m := hm₁
    have hkept₁ : d₁.lookup WRAPPED_KEY_FILE = d.lookup WRAPPED_KEY_FILE := by
      rcases hcreate with ⟨file, -, hd₁, -⟩ | ⟨hd₁, -⟩
      · have hd₁ : d₁ = d.insert TEMP_FILE file := hd₁
        rw [hd₁, AList.lookup_insert_ne hne]
      · have hd₁ : d₁ = d := hd₁
        rw [hd₁]
    rw [hm₁]
    refine (wpe_bind _ _).mpr (wpe_call ?_ ?_)
    · rintro y b ⟨d₂, m₂⟩ hview ⟨hwrite, hm₂⟩
      have hm₂ : m₂ = m := hm₂
      have hview : y = .ok b := hview
      rcases hwrite with ⟨file, hd₂, ⟨hcontent, -⟩ | ⟨e, hy⟩⟩ | ⟨-, e, hy⟩
      · have hd₂ : d₂ = d₁.insert TEMP_FILE file := hd₂
        -- synchronising the file changes nothing of it
        have hsync : ∀ d₃ m₃, d₃ = d₂ → m₃ = m →
            m₃ = m ∧ d₃.lookup WRAPPED_KEY_FILE = d.lookup WRAPPED_KEY_FILE ∧
              ∃ file : KeystoreFile, d₃.lookup TEMP_FILE = some file ∧ file.content = content := by
          intro d₃ m₃ hd₃ hm₃
          rw [hd₃, hd₂]
          refine ⟨hm₃, ?_, file, AList.lookup_insert _, hcontent⟩
          rw [AList.lookup_insert_ne hne]
          exact hkept₁
        refine wpe_call ?_ ?_
        · rintro z c ⟨d₃, m₃⟩ - ⟨hd₃, hm₃⟩
          exact hsync d₃ m₃ hd₃ (hm₃.trans hm₂)
        · rintro z e ⟨d₃, m₃⟩ - ⟨hd₃, hm₃⟩
          have hend := hsync d₃ m₃ hd₃ (hm₃.trans hm₂)
          exact ⟨hend.1, hend.2.1⟩
      · rw [hview] at hy
        cases hy
      · rw [hview] at hy
        cases hy
    · rintro y e ⟨d₂, m₂⟩ - ⟨hwrite, hm₂⟩
      have hm₂ : m₂ = m := hm₂
      refine ⟨hm₂, ?_⟩
      rcases hwrite with ⟨file, hd₂, -⟩ | ⟨hd₂, -⟩
      · have hd₂ : d₂ = d₁.insert TEMP_FILE file := hd₂
        rw [hd₂, AList.lookup_insert_ne hne]
        exact hkept₁
      · have hd₂ : d₂ = d₁ := hd₂
        rw [hd₂]
        exact hkept₁
  · rintro x e ⟨d₁, m₁⟩ hview ⟨hcreate, hm₁⟩
    refine ⟨hm₁, ?_⟩
    rcases hcreate with ⟨file, -, hd₁, -⟩ | ⟨hd₁, -⟩
    · have hd₁ : d₁ = d.insert TEMP_FILE file := hd₁
      rw [hd₁, AList.lookup_insert_ne hne]
    · have hd₁ : d₁ = d := hd₁
      rw [hd₁]

omit [Codec] [Crypto] [Argon2] [ValueJson] in
theorem wpe_rename {file : KeystoreFile} {Q : Unit → KeystoreDir × ChangeNotes → Prop}
    {E : String → KeystoreDir × ChangeNotes → Prop} (htemp : d.lookup TEMP_FILE = some file)
    (hok : Q () ((d.erase TEMP_FILE).insert WRAPPED_KEY_FILE file, m))
    (herror : ∀ e, E e (d, m)) :
    wpe notedEnv Q E (io (.rename TEMP_FILE WRAPPED_KEY_FILE) fun answer => answer) (d, m) := by
  refine wpe_call ?_ ?_
  · rintro x a ⟨d', m'⟩ hview ⟨hstep, hm⟩
    have hm : m' = m := hm
    rw [hm]
    rcases hstep with ⟨file', hfile, hd, -⟩ | ⟨-, e, hx⟩
    · have hd : d' = (d.erase TEMP_FILE).insert WRAPPED_KEY_FILE file' := hd
      have hsame : file' = file := Option.some.inj (hfile.symm.trans htemp)
      rw [hd, hsame]
      exact hok
    · have hview : x = .ok a := hview
      rw [hview] at hx
      cases hx
  · rintro x e ⟨d', m'⟩ hview ⟨hstep, hm⟩
    have hm : m' = m := hm
    rw [hm]
    have hview : x = .error e := hview
    rcases hstep with ⟨file', -, -, hx⟩ | ⟨hd, -⟩
    · have hx : x = .ok () := hx
      rw [hview] at hx
      cases hx
    · have hd : d' = d := hd
      rw [hd]
      exact herror e

omit [Codec] [Crypto] [Argon2] [ValueJson] in
/-- The permissions do not change what the file holds. -/
theorem wpe_restrictPermissions {file : KeystoreFile}
    (hfile : d.lookup WRAPPED_KEY_FILE = some file) :
    wpe notedEnv
      (fun _ u => u.2 = { m with finished := true } ∧ ∃ file' : KeystoreFile,
        u.1.lookup WRAPPED_KEY_FILE = some file' ∧ file'.content = file.content)
      (fun _ u => u.2 = { m with denied := true } ∧ u.1 = d) restrictPermissions (d, m) := by
  unfold restrictPermissions
  refine (wpe_bind _ _).mpr (wpe_call ?_ ?_)
  · rintro x mode ⟨d₁, m₁⟩ hview ⟨hstep, hm₁⟩
    have hview : x = .ok mode := hview
    rw [hview] at hm₁
    have hm₁ : m₁ = m := hm₁
    have hd₁ : d₁ = d := hstep.1
    rw [hd₁, hm₁]
    refine wpe_call ?_ ?_
    · rintro y b ⟨d₂, m₂⟩ hview₂ ⟨hstep₂, hm₂⟩
      have hview₂ : y = .ok b := hview₂
      rw [hview₂] at hm₂
      refine ⟨hm₂, ?_⟩
      rcases hstep₂ with ⟨file', hfile', hd₂, -⟩ | ⟨-, e, hy⟩
      -- the content is as it was, under another mode
      · have hsame : file' = file := Option.some.inj (hfile'.symm.trans hfile)
        have hd₂ : d₂ = d.insert WRAPPED_KEY_FILE { file' with mode := 0o600 } := hd₂
        rw [hd₂]
        refine ⟨_, AList.lookup_insert _, ?_⟩
        rw [hsame]
      · rw [hview₂] at hy
        cases hy
    · rintro y e ⟨d₂, m₂⟩ hview₂ ⟨hstep₂, hm₂⟩
      have hview₂ : y = .error e := hview₂
      rw [hview₂] at hm₂
      refine ⟨hm₂, ?_⟩
      rcases hstep₂ with ⟨file', -, -, hy⟩ | ⟨hd₂, -⟩
      · have hy : y = .ok () := hy
        rw [hview₂] at hy
        cases hy
      · exact hd₂
  · rintro x e ⟨d₁, m₁⟩ hview ⟨hstep, hm₁⟩
    have hview : x = .error e := hview
    rw [hview] at hm₁
    exact ⟨hm₁, hstep.1⟩

end Steps

/-! ## What a change leaves -/

/-- What the caller may rely on: after an error the old password still unlocks the directory,
after a success the new one does and the old one does not. -/
def Kept (sk : Bytes) (oldCmk newCmk : String) (outcome : Except String Unit)
    (d' : KeystoreDir) : Prop :=
  match outcome with
  | .ok _ => Unlocks d' newCmk sk ∧ Refuses d' oldCmk
  | .error _ => Unlocks d' oldCmk sk

/-- The two passwords have different keys under the drawn salt. -/
def KeysDiffer (d : KeystoreDir) (oldCmk newCmk : String) (drawn : Option Salt) : Prop :=
  ∃ file data salt params newSalt, d.lookup WRAPPED_KEY_FILE = some file ∧
    fromStr file.content = .ok data ∧ kdfOf data = .ok (salt, params) ∧ drawn = some newSalt ∧
      argon2id (utf8 oldCmk) newSalt params ≠ argon2id (utf8 newCmk) newSalt params

/-- No call after the rename fails, unless both passwords have one key; and when the change goes
through, they have two. -/
def Undenied (d : KeystoreDir) (oldCmk newCmk : String) (m : ChangeNotes) : Prop :=
  (m.denied = true → ¬ KeysDiffer d oldCmk newCmk m.salt) ∧
    (m.finished = true → KeysDiffer d oldCmk newCmk m.salt)

section Change

variable [LawfulBase64] [LawfulValueJson] [LawfulCrypto] [AeadAuthentic] {d d' : KeystoreDir}
  {oldCmk newCmk : String} {sk : Bytes}

omit [LawfulBase64] [LawfulValueJson] [LawfulCrypto] [AeadAuthentic] in
theorem unlocks_of_same (h : Unlocks d oldCmk sk)
    (hsame : d'.lookup WRAPPED_KEY_FILE = d.lookup WRAPPED_KEY_FILE) : Unlocks d' oldCmk sk := by
  rw [unlocks_iff] at h ⊢
  rw [hsame]
  exact h

omit [LawfulBase64] [LawfulValueJson] [LawfulCrypto] [AeadAuthentic] in
/-- An error before the rename leaves the file, and nothing was denied. -/
theorem kept_of_early (e : String) {m : ChangeNotes} (hopen : Unlocks d oldCmk sk)
    (hsame : d'.lookup WRAPPED_KEY_FILE = d.lookup WRAPPED_KEY_FILE) (hdenied : m.denied = false)
    (hfinished : m.finished = false) :
    Kept sk oldCmk newCmk (.error e) d' ↔ Undenied d oldCmk newCmk m := by
  constructor
  · intro _
    constructor
    · intro hdeny
      rw [hdenied] at hdeny
      cases hdeny
    · intro hfinish
      rw [hfinished] at hfinish
      cases hfinish
  · intro _
    exact unlocks_of_same hopen hsame

omit [Crypto] [LawfulBase64] [LawfulValueJson] [LawfulCrypto] [AeadAuthentic] in
/-- The two keys are compared under the parameters of the file. -/
theorem keysDiffer_iff {file : KeystoreFile} {data : JsonValue} {salt newSalt : Salt}
    {params : Argon2Params} (hfile : d.lookup WRAPPED_KEY_FILE = some file)
    (hdata : fromStr file.content = .ok data) (hkdf : kdfOf data = .ok (salt, params)) :
    KeysDiffer d oldCmk newCmk (some newSalt) ↔
      argon2id (utf8 oldCmk) newSalt params ≠ argon2id (utf8 newCmk) newSalt params := by
  constructor
  · rintro ⟨file', data', salt', params', newSalt', hfile', hdata', hkdf', hsalt', hne⟩
    rw [← Option.some.inj (hfile.symm.trans hfile'), hdata] at hdata'
    rw [← Except.ok.inj hdata', hkdf] at hkdf'
    cases hkdf'
    cases hsalt'
    exact hne
  · intro hne
    exact ⟨file, data, salt, params, newSalt, hfile, hdata, hkdf, rfl, hne⟩

/-- The new file is closed to the old password exactly when its key is another one. -/
theorem refuses_rewrapped_iff {file : KeystoreFile} {salt : Salt} {params : Argon2Params}
    (hrewrapped : Rewrapped newCmk params sk salt file.content)
    (hfile : d.lookup WRAPPED_KEY_FILE = some file) :
    Refuses d oldCmk ↔ argon2id (utf8 oldCmk) salt params ≠ argon2id (utf8 newCmk) salt params := by
  rw [refuses_iff, ne_eq, ← hrewrapped.opens_iff]
  constructor
  · rintro h ⟨sk', hopens⟩
    exact h file sk' hfile hopens
  · intro h file' sk' hfile' hopens
    rw [← Option.some.inj (hfile.symm.trans hfile')] at hopens
    exact h ⟨sk', hopens⟩

/-- What a change leaves whose permissions were set. -/
theorem kept_of_finished {file : KeystoreFile} {newSalt : Salt} {params : Argon2Params}
    (hrewrapped : Rewrapped newCmk params sk newSalt file.content)
    (hfile : d'.lookup WRAPPED_KEY_FILE = some file)
    (hdiffer : KeysDiffer d oldCmk newCmk (some newSalt) ↔
      argon2id (utf8 oldCmk) newSalt params ≠ argon2id (utf8 newCmk) newSalt params) :
    Kept sk oldCmk newCmk (.ok ()) d' ↔
      Undenied d oldCmk newCmk { salt := some newSalt, denied := false, finished := true } := by
  have hrefuses := (refuses_rewrapped_iff hrewrapped hfile).trans hdiffer.symm
  constructor
  · rintro ⟨-, hrefused⟩
    exact ⟨fun hdeny => Bool.noConfusion hdeny, fun _ => hrefuses.mp hrefused⟩
  · rintro ⟨-, hkeys⟩
    exact ⟨unlocks_iff.mpr ⟨file, hfile, hrewrapped.opens⟩, hrefuses.mpr (hkeys rfl)⟩

/-- What a change leaves that is denied its permissions: the file is the new one, and the error
says that it is the old one. -/
theorem kept_of_denied (e : String) {file : KeystoreFile} {newSalt : Salt} {params : Argon2Params}
    (hrewrapped : Rewrapped newCmk params sk newSalt file.content)
    (hfile : d'.lookup WRAPPED_KEY_FILE = some file)
    (hdiffer : KeysDiffer d oldCmk newCmk (some newSalt) ↔
      argon2id (utf8 oldCmk) newSalt params ≠ argon2id (utf8 newCmk) newSalt params) :
    Kept sk oldCmk newCmk (.error e) d' ↔
      Undenied d oldCmk newCmk { salt := some newSalt, denied := true, finished := false } := by
  constructor
  · intro hunlocks
    refine ⟨fun _ hkeys => ?_, fun hfinish => Bool.noConfusion hfinish⟩
    rcases unlocks_iff.mp hunlocks with ⟨file', hfile', hopens⟩
    have hrefused := (refuses_rewrapped_iff hrewrapped hfile).mpr (hdiffer.mp hkeys)
    exact refuses_iff.mp hrefused file' sk hfile' hopens
  · rintro ⟨hkeys, -⟩
    have hsame : argon2id (utf8 oldCmk) newSalt params =
        argon2id (utf8 newCmk) newSalt params := by
      by_contra hne
      exact hkeys rfl (hdiffer.mpr hne)
    exact unlocks_iff.mpr ⟨file, hfile, hrewrapped.opens_of_same hsame⟩

/-- What is noted of a change that stops before the rename says nothing of the permissions. -/
theorem wpe_changeCmk (newCmk : String) (hopen : Unlocks d oldCmk sk) :
    wpe notedEnv
      (fun _ u => Kept sk oldCmk newCmk (.ok ()) u.1 ↔ Undenied d oldCmk newCmk u.2)
      (fun e u => Kept sk oldCmk newCmk (.error e) u.1 ↔ Undenied d oldCmk newCmk u.2)
      (changeCmk oldCmk newCmk) (d, .empty) := by
  rcases unlocks_iff.mp hopen with ⟨file, hfile, hopens⟩
  unfold changeCmk
  refine (wpe_bind _ _).mpr (wpe_mono ?_ ?_ wpe_openSecretKey)
  · rintro ⟨data, params, sk'⟩ u ⟨hu, file', hfile', hread⟩
    have hsame : file' = file := Option.some.inj (hfile'.symm.trans hfile)
    rw [hsame] at hread
    have hsk : sk' = sk := Opens.unique ⟨data, params, hread⟩ hopens
    rw [hsk] at hread
    rcases readKey_ok hread with ⟨hdata, ⟨salt, hkdf⟩, hlength⟩
    rw [hu, hsk]
    refine (wpe_bind _ _).mpr (wpe_mono ?_ ?_ (wpe_rewrap (kdfOf_lt hkdf) hlength))
    · rintro content u₁ ⟨newSalt, hu₁, hrewrapped⟩
      rw [hu₁]
      refine (wpe_bind _ _).mpr (wpe_mono ?_ ?_ wpe_writeTemp)
      · rintro _ ⟨d₂, m₂⟩ ⟨hm₂, hkept, temp, htemp, hcontent⟩
        have hm₂ : m₂ = { ChangeNotes.empty with salt := some newSalt } := hm₂
        rw [hm₂]
        refine (wpe_bind _ _).mpr
          (wpe_rename htemp ?_ fun e => kept_of_early e hopen hkept rfl rfl)
        -- from here on the file is the new one
        rw [← hcontent] at hrewrapped
        have hdiffer : KeysDiffer d oldCmk newCmk (some newSalt) ↔ _ :=
          keysDiffer_iff hfile hdata hkdf
        refine wpe_mono ?_ ?_ (wpe_restrictPermissions (AList.lookup_insert _))
        · rintro _ ⟨d₃, m₃⟩ ⟨hm₃, file', hlookup, hsame'⟩
          have hm₃ : m₃ = { salt := some newSalt, denied := false, finished := true } := hm₃
          rw [← hsame'] at hrewrapped
          rw [hm₃]
          exact kept_of_finished hrewrapped hlookup hdiffer
        · rintro e ⟨d₃, m₃⟩ ⟨hm₃, hd₃⟩
          have hm₃ : m₃ = { salt := some newSalt, denied := true, finished := false } := hm₃
          have hlookup : d₃.lookup WRAPPED_KEY_FILE = some temp := by
            have hd₃ : d₃ = (d₂.erase TEMP_FILE).insert WRAPPED_KEY_FILE temp := hd₃
            rw [hd₃]
            exact AList.lookup_insert _
          rw [hm₃]
          exact kept_of_denied e hrewrapped hlookup hdiffer
      · rintro e ⟨d₂, m₂⟩ ⟨hm₂, hkept⟩
        refine kept_of_early e hopen hkept ?_ ?_
        · rw [hm₂]
          rfl
        · rw [hm₂]
          rfl
    · rintro e u₁ ⟨salt₁, hu₁⟩
      rw [hu₁]
      exact kept_of_early e hopen rfl rfl rfl
  · intro e u hu
    rw [hu]
    exact kept_of_early e hopen rfl rfl rfl

/-- The directory unlocks to the secret key with one of the two passwords. -/
def Recoverable (d : KeystoreDir) (oldCmk newCmk : String) (sk : Bytes) : Prop :=
  Unlocks d oldCmk sk ∨ Unlocks d newCmk sk

/-- The calls before the rename. -/
def Spares : KeystoreCall → Prop
  | .create path => path = TEMP_FILE
  | .writeAll path _ => path = TEMP_FILE
  | .rename _ _ => False
  | .setPermissions _ _ => False
  | _ => True

omit [Codec] [Crypto] [Argon2] [ValueJson] [LawfulBase64] [LawfulValueJson] [LawfulCrypto]
  [AeadAuthentic] in
theorem lookup_of_spares {u v : KeystoreDir} {c : KeystoreCall} {x : c.Answer} (h : Spares c)
    (hstep : keystoreEnv u c x v) : v.lookup WRAPPED_KEY_FILE = u.lookup WRAPPED_KEY_FILE := by
  have hne : WRAPPED_KEY_FILE ≠ TEMP_FILE := by decide
  cases c with
  | readToString path =>
      have hv : v = u := hstep.1
      rw [hv]
  | create path =>
      have hpath : path = TEMP_FILE := h
      rcases hstep with ⟨file, -, hv, -⟩ | ⟨hv, -⟩
      · rw [hv, hpath, AList.lookup_insert_ne hne]
      · rw [hv]
  | writeAll path content =>
      have hpath : path = TEMP_FILE := h
      rcases hstep with ⟨file, hv, -⟩ | ⟨hv, -⟩
      · rw [hv, hpath, AList.lookup_insert_ne hne]
      · rw [hv]
  | rename source target => exact h.elim
  | setPermissions path mode => exact h.elim
  | metadata path =>
      have hv : v = u := hstep.1
      rw [hv]
  | syncAll path =>
      have hv : v = u := hstep
      rw [hv]
  | lockMemory =>
      have hv : v = u := hstep
      rw [hv]
  | generateSalt =>
      have hv : v = u := hstep
      rw [hv]
  | generateNonce =>
      have hv : v = u := hstep
      rw [hv]
  | now =>
      have hv : v = u := hstep
      rw [hv]
  | newUuid =>
      have hv : v = u := hstep
      rw [hv]

omit [LawfulBase64] [LawfulValueJson] [LawfulCrypto] [AeadAuthentic] in
theorem Recoverable.of_same {u v : KeystoreDir} (h : Recoverable u oldCmk newCmk sk)
    (hsame : v.lookup WRAPPED_KEY_FILE = u.lookup WRAPPED_KEY_FILE) :
    Recoverable v oldCmk newCmk sk :=
  h.imp (fun hold => unlocks_of_same hold hsame) fun hnew => unlocks_of_same hnew hsame

omit [LawfulBase64] [LawfulValueJson] [LawfulCrypto] [AeadAuthentic] in
theorem only_openSecretKey (cmk : String) : Fallible.Only Spares (openSecretKey cmk) := by
  have honly : ∀ {α : Type} (result : Except String α),
      Fallible.Only (I := KeystoreI) Spares (value result) := by
    intro α result
    cases result with
    | ok a => exact only_pure a
    | error e => exact only_throw e
  refine only_bind (only_call trivial) fun content => ?_
  refine only_bind (honly _) fun data => ?_
  refine only_bind (honly _) fun kdf => ?_
  refine only_bind (only_bind (only_call trivial) fun _ => honly _) fun key => ?_
  refine only_bind (honly _) fun wrapped => ?_
  exact only_bind (honly _) fun sk => only_pure _

omit [LawfulBase64] [LawfulValueJson] [LawfulCrypto] [AeadAuthentic] in
theorem only_rewrap (data : JsonValue) (params : Argon2Params) (sk : Bytes) (cmk : String) :
    Fallible.Only Spares (rewrap data params sk cmk) := by
  have honly : ∀ {α : Type} (result : Except String α),
      Fallible.Only (I := KeystoreI) Spares (value result) := by
    intro α result
    cases result with
    | ok a => exact only_pure a
    | error e => exact only_throw e
  refine only_bind (only_ask trivial) fun salt => ?_
  refine only_bind (only_bind (only_call trivial) fun _ => honly _) fun key => ?_
  refine only_bind (only_ask trivial) fun nonce => ?_
  refine only_bind (honly _) fun wrapped => ?_
  exact only_bind (only_ask trivial) fun createdAt => honly _

omit [Codec] [Crypto] [Argon2] [ValueJson] [LawfulBase64] [LawfulValueJson] [LawfulCrypto]
  [AeadAuthentic] in
theorem only_writeTemp (content : String) : Fallible.Only Spares (writeTemp content) :=
  only_bind (only_call rfl) fun _ => only_bind (only_call rfl) fun _ => only_call trivial

omit [AeadAuthentic] in
/-- Wherever a change is cut off, one of the two passwords unlocks the directory. -/
theorem recoverable_crash (hopen : Unlocks d oldCmk sk)
    (hcrash : Crash keystoreEnv (changeCmk oldCmk newCmk).run d d') :
    Recoverable d' oldCmk newCmk sk := by
  rcases unlocks_iff.mp hopen with ⟨file, hfile, hopens⟩
  have hkeep : ∀ (u : KeystoreDir) (c : KeystoreCall) (x : c.Answer) (v : KeystoreDir),
      Spares c → keystoreEnv u c x v → Recoverable u oldCmk newCmk sk →
        Recoverable v oldCmk newCmk sk :=
    fun u c x v hspares hstep h => h.of_same (lookup_of_spares hspares hstep)
  refine hcrash.of_alwayse (C := fun u => Recoverable u oldCmk newCmk sk) ?_
  unfold changeCmk
  have hopened : wpe keystoreEnv
      (fun r u => u = d ∧ ∃ file, d.lookup WRAPPED_KEY_FILE = some file ∧
        readKey file.content oldCmk = .ok r)
      (fun _ _ => True) (openSecretKey oldCmk) d := by
    refine wpe_of_observing (m := .empty) wpe_openSecretKey ?_ fun _ _ _ => trivial
    rintro r u ⟨hu, hread⟩
    rw [hu]
    exact ⟨rfl, hread⟩
  refine alwayse_bind (alwayse_of_wpe (only_openSecretKey oldCmk) hkeep (Or.inl hopen) hopened) ?_
  rintro ⟨data, params, sk'⟩ u ⟨hu, file', hfile', hread⟩
  have hsame : file' = file := Option.some.inj (hfile'.symm.trans hfile)
  rw [hsame] at hread
  have hsk : sk' = sk := Opens.unique ⟨data, params, hread⟩ hopens
  rw [hsk] at hread
  rcases readKey_ok hread with ⟨-, ⟨salt, hkdf⟩, hlength⟩
  rw [hu, hsk]
  have hrewrap : wpe keystoreEnv
      (fun content u => u = d ∧ ∃ salt, Rewrapped newCmk params sk salt content)
      (fun _ _ => True) (rewrap data params sk newCmk) d := by
    refine wpe_of_observing (m := .empty) (wpe_rewrap (kdfOf_lt hkdf) hlength) ?_
      fun _ _ _ => trivial
    rintro content u ⟨newSalt, hu, hrewrapped⟩
    rw [hu]
    exact ⟨rfl, newSalt, hrewrapped⟩
  refine alwayse_bind (alwayse_of_wpe (only_rewrap data params sk newCmk) hkeep (Or.inl hopen)
    hrewrap) ?_
  rintro content u₁ ⟨hu₁, newSalt, hrewrapped⟩
  rw [hu₁]
  have hwritten : wpe keystoreEnv
      (fun _ u => u.lookup WRAPPED_KEY_FILE = d.lookup WRAPPED_KEY_FILE ∧
        ∃ file : KeystoreFile, u.lookup TEMP_FILE = some file ∧ file.content = content)
      (fun _ _ => True) (writeTemp content) d :=
    wpe_of_observing (m := .empty) wpe_writeTemp (fun _ _ h => h.2) fun _ _ _ => trivial
  refine alwayse_bind (alwayse_of_wpe (only_writeTemp content) hkeep (Or.inl hopen) hwritten) ?_
  rintro _ u₂ ⟨hkept, temp, htemp, hcontent⟩
  have hstill : Recoverable u₂ oldCmk newCmk sk := Or.inl (unlocks_of_same hopen hkept)
  -- the rename replaces the file by one that the new password opens
  refine alwayse_bind
    (P := fun _ u => ∃ file' : KeystoreFile, u.lookup WRAPPED_KEY_FILE = some file' ∧
      file'.content = temp.content)
    (alwayse_call hstill ?_ ?_) ?_
  · intro x a u₃ hview hstep
    rcases hstep with ⟨file', hfile', hu₃, -⟩ | ⟨-, e, hx⟩
    · rw [hu₃]
      refine ⟨file', AList.lookup_insert _, ?_⟩
      rw [Option.some.inj (hfile'.symm.trans htemp)]
    · have hview : x = .ok a := hview
      rw [hview] at hx
      cases hx
  · intro x e u₃ hview hstep
    rcases hstep with ⟨file', -, -, hx⟩ | ⟨hu₃, -⟩
    · have hview : x = .error e := hview
      rw [hview] at hx
      cases hx
    · rw [hu₃]
      exact hstill
  · intro _ u₃ hrenamed
    -- only the permissions change after that
    have hrecoverable : ∀ u : KeystoreDir, (∃ file' : KeystoreFile,
        u.lookup WRAPPED_KEY_FILE = some file' ∧ file'.content = temp.content) →
          Recoverable u oldCmk newCmk sk := by
      rintro u ⟨file', hlookup, hsame'⟩
      refine Or.inr (unlocks_iff.mpr ⟨file', hlookup, ?_⟩)
      rw [hsame', hcontent]
      exact hrewrapped.opens
    refine alwayse_mono hrecoverable (fun _ u h => hrecoverable u h) ?_
    refine alwayse_of_only (P := fun c : KeystoreCall =>
      (∃ path, c = KeystoreCall.metadata path) ∨
        ∃ mode, c = KeystoreCall.setPermissions WRAPPED_KEY_FILE mode) ?_ ?_ hrenamed
    · exact only_bind (only_call (Or.inl ⟨_, rfl⟩)) fun _ => only_call (Or.inr ⟨_, rfl⟩)
    · rintro u c x v (⟨path, hc⟩ | ⟨mode, hc⟩) hstep h
      · subst hc
        have hv : v = u := hstep.1
        rw [hv]
        exact h
      · subst hc
        rcases hstep with ⟨file', hlookup, hv, -⟩ | ⟨hv, -⟩
        · rcases h with ⟨file'', hlookup', hsame'⟩
          rw [hv]
          refine ⟨_, AList.lookup_insert _, ?_⟩
          rw [Option.some.inj (hlookup.symm.trans hlookup')]
          exact hsame'
        · rw [hv]
          exact h

/-- A change of the password is safe when nothing fails after the rename and the passwords have
two keys. -/
theorem changeCmk_safe_iff {trace : List (Event KeystoreI)} {outcome : Except String Unit}
    (hopen : Unlocks d oldCmk sk) (hret : (changeCmk oldCmk newCmk).run.Returns trace outcome)
    (hpath : Path keystoreEnv d trace d') :
    ((∀ u, Crash keystoreEnv (changeCmk oldCmk newCmk).run d u → Recoverable u oldCmk newCmk sk) ∧
      Kept sk oldCmk newCmk outcome d') ↔ Undenied d oldCmk newCmk (notes trace) := by
  have hend := wpe_observing (wpe_changeCmk newCmk hopen) hret hpath
  have hkept : Kept sk oldCmk newCmk outcome d' ↔ Undenied d oldCmk newCmk (notes trace) := by
    cases outcome with
    | ok a => exact hend
    | error e => exact hend
  constructor
  · intro h
    exact hkept.mp h.2
  · intro h
    exact ⟨fun u hcrash => recoverable_crash hopen hcrash, hkept.mpr h⟩

end Change

end Opening

/-! ## A change of a real vault -/

namespace Changed

/-- The parameters that a vault is set up with. -/
def params : Argon2Params where
  mCost := 49152
  tCost := 2
  pCost := 2

def oldSalt : Salt :=
  Salt.filled 1

def newSalt : Salt :=
  Salt.filled 2

def oldNonce : Nonce :=
  Nonce.filled 3

def newNonce : Nonce :=
  Nonce.filled 4

def sk : Bytes :=
  List.replicate 32 5

/-- The old password under the old salt. -/
def oldKey : Bytes :=
  [83, 84, 24, 107, 34, 3, 27, 186, 225, 114, 155, 192, 84, 221, 236, 120, 142, 125, 227, 92, 13,
    62, 5, 108, 184, 249, 99, 191, 194, 212, 93, 39]

/-- The old password under the new salt. -/
def lostKey : Bytes :=
  [239, 254, 144, 253, 6, 33, 214, 18, 91, 238, 99, 89, 42, 205, 66, 18, 195, 233, 7, 57, 24, 37,
    208, 34, 95, 48, 186, 226, 89, 176, 180, 76]

/-- The new password under the new salt. -/
def newKey : Bytes :=
  [139, 19, 223, 44, 118, 59, 123, 32, 101, 145, 158, 162, 216, 75, 37, 22, 136, 255, 240, 217, 97,
    162, 78, 252, 207, 80, 150, 254, 33, 35, 165, 13]

abbrev argon2 : Argon2 :=
  referenceArgon2
    [((utf8 "correct horse", oldSalt, params), oldKey),
      ((utf8 "correct horse", newSalt, params), lostKey),
      ((utf8 "battery staple", newSalt, params), newKey)]

abbrev crypto : Crypto :=
  keyedCrypto [(oldKey, oldNonce), (newKey, newNonce)]

section

attribute [local instance] Sample.codec

/-- The secret key as it is wrapped. -/
def wrapped (key : Bytes) (nonce : Nonce) : Bytes :=
  Aead.mask key nonce sk ++ Aead.tagOf key nonce [] (Aead.mask key nonce sk)

def oldDocument : JsonValue :=
  wrappedKeyJson (wrapped oldKey oldNonce) oldNonce oldSalt params Sample.instant "en"

def newDocument : JsonValue :=
  wrappedKeyJson (wrapped newKey newNonce) newNonce newSalt params Sample.instant "en"

end

abbrev valueJson : ValueJson :=
  referenceValueJson [oldDocument, newDocument]

def directory : KeystoreDir :=
  AList.insert WRAPPED_KEY_FILE ⟨Json.pretty 0 oldDocument, 0o600⟩ ∅

theorem lawfulBase64 : @LawfulBase64 Sample.codec :=
  letI : Codec := Sample.codec
  { base64Decode_base64Encode := Base64.decode_encode }

theorem lawfulCrypto : @LawfulCrypto crypto :=
  keyedCrypto_lawful

theorem authentic : @AeadAuthentic crypto :=
  keyedCrypto_authentic (by decide)

theorem lawfulValueJson : @LawfulValueJson valueJson :=
  referenceValueJson_lawful (by decide +kernel)

section

attribute [local instance] Sample.codec crypto argon2 valueJson lawfulBase64 lawfulCrypto authentic
  lawfulValueJson

/-- The directory, where permissions may be changed or not. -/
def bench (denied : Bool) : KeystoreBench where
  files := directory
  denied := denied

def outcome (denied : Bool) : Except String Unit × KeystoreBench :=
  KeystoreBench.complete newSalt newNonce Sample.instant
    (changeCmk "correct horse" "battery staple") (bench denied)

def trace (denied : Bool) : List (Event KeystoreI) :=
  KeystoreBench.completeTrace newSalt newNonce Sample.instant
    (changeCmk "correct horse" "battery staple") (bench denied)

/-- What the two documents print as and hold, the keys of the old password, and what these open. -/
theorem documents :
    ((toStringPretty oldDocument = .ok (Json.pretty 0 oldDocument) ∧
        kdfOf oldDocument = .ok (oldSalt, params)) ∧
      toStringPretty newDocument = .ok (Json.pretty 0 newDocument)) ∧
    ((argon2id (utf8 "correct horse") oldSalt params = .ok oldKey ∧
        argon2id (utf8 "correct horse") newSalt params ≠
          argon2id (utf8 "battery staple") newSalt params) ∧
      argon2id (utf8 "correct horse") newSalt params = .ok lostKey) ∧
    unwrapKey (wrapped oldKey oldNonce) oldNonce oldKey = .ok sk ∧
      unwrapKey (wrapped newKey newNonce) newNonce lostKey = .error "aead::Error" := by
  decide +kernel

theorem unlocks_directory : Unlocks directory "correct horse" sk := by
  refine unlocks_iff.mpr ⟨_, AList.lookup_insert _, oldDocument, params, ?_⟩
  rcases documents with ⟨⟨⟨hprint, -⟩, -⟩, ⟨⟨hkey, -⟩, -⟩, hunwrap, -⟩
  have hbound : params.mCost < 2 ^ 32 ∧ params.tCost < 2 ^ 32 ∧ params.pCost < 2 ^ 32 := by
    decide
  have hread := readKey_printed "correct horse" hbound hprint
  rw [hkey, ok_bind, hunwrap, ok_bind] at hread
  exact hread

theorem returns_trace (denied : Bool) :
    (changeCmk "correct horse" "battery staple").run.Returns (trace denied) (outcome denied).1 :=
  KeystoreBench.returns_complete _ _ _ _ _

theorem path_trace (denied : Bool) :
    Path keystoreEnv (bench denied).files (trace denied) (outcome denied).2.files := by
  unfold trace outcome
  exact KeystoreBench.path_complete _ _ _ _ _

/-- What the two runs note and leave. -/
theorem runs_leave :
    ((notes (trace false)).denied = false ∧ (notes (trace false)).salt = some newSalt) ∧
      (outcome true).1 = .error "Operation not permitted (os error 1)" ∧
      ((outcome true).2.files.lookup WRAPPED_KEY_FILE).map KeystoreFile.content =
        some (Json.pretty 0 newDocument) := by
  decide +kernel

/-- The run with permission notes a salt and no refusal. -/
theorem undenied_trace :
    Undenied directory "correct horse" "battery staple" (notes (trace false)) := by
  have hdoc : fromStr (Json.pretty 0 oldDocument) = .ok oldDocument :=
    LawfulValueJson.fromStr_toStringPretty distinct_wrappedKeyJson documents.1.1.1
  rcases documents with ⟨⟨⟨-, hkdf⟩, -⟩, ⟨⟨-, hdiffer⟩, -⟩, -⟩
  constructor
  · intro h
    rw [runs_leave.1.1] at h
    cases h
  · intro _
    exact ⟨_, _, _, _, _, AList.lookup_insert _, hdoc, hkdf, runs_leave.1.2, hdiffer⟩

/-- A change that goes through. -/
theorem safe_granted :
    (∀ u, Crash keystoreEnv (changeCmk "correct horse" "battery staple").run directory u →
      Recoverable u "correct horse" "battery staple" sk) ∧
        Kept sk "correct horse" "battery staple" (outcome false).1 (outcome false).2.files :=
  (changeCmk_safe_iff unlocks_directory (returns_trace false) (path_trace false)).mpr
    undenied_trace

/-- The permissions are denied after the rename: the change reports an error, and the old password
is gone. -/
theorem lost_denied :
    Unlocks directory "correct horse" sk ∧
      (changeCmk "correct horse" "battery staple").run.Returns (trace true) (outcome true).1 ∧
        Path keystoreEnv directory (trace true) (outcome true).2.files ∧
          (outcome true).1 = .error "Operation not permitted (os error 1)" ∧
            ¬ Unlocks (outcome true).2.files "correct horse" sk := by
  refine ⟨unlocks_directory, returns_trace true, path_trace true, runs_leave.2.1, ?_⟩
  intro h
  rcases unlocks_iff.mp h with ⟨file, hfile, data, params', hread⟩
  have hcontent := runs_leave.2.2
  rw [hfile] at hcontent
  rw [Option.some.inj hcontent] at hread
  rcases documents with ⟨⟨-, hprint⟩, ⟨-, hkey⟩, -, hunwrap⟩
  have hbound : params.mCost < 2 ^ 32 ∧ params.tCost < 2 ^ 32 ∧ params.pCost < 2 ^ 32 := by
    decide
  have hnew := readKey_printed "correct horse" hbound hprint
  rw [hkey, ok_bind, hunwrap] at hnew
  rw [hnew] at hread
  cases hread

end

end Changed

end KeyStore

end OakKeyring
