import OakKeyring.Crypto.Keystore
import OakKeyring.Samples.Store

/-!
# A key store on a bench

JSON documents as serde_json prints them, Argon2id by a table of its values, and a directory that
answers in order.
-/

namespace OakKeyring

open Effect

/-! ## Documents -/

namespace JsonValue

mutual

/-- Equality of documents, computed. -/
def same : JsonValue → JsonValue → Bool
  | null, null => true
  | bool a, bool b => a == b
  | number m, number n => m == n
  | otherNumber s, otherNumber t => s == t
  | string s, string t => s == t
  | array xs, array ys => sameItems xs ys
  | object fs, object gs => sameFields fs gs
  | _, _ => false

def sameItems : List JsonValue → List JsonValue → Bool
  | [], [] => true
  | v :: vs, w :: ws => same v w && sameItems vs ws
  | _, _ => false

def sameFields : List (String × JsonValue) → List (String × JsonValue) → Bool
  | [], [] => true
  | (k, v) :: fs, (l, w) :: gs => k == l && same v w && sameFields fs gs
  | _, _ => false

end

mutual

theorem eq_of_same {v w : JsonValue} (h : same v w = true) : v = w := by
  cases v <;> cases w <;> simp [same] at h ⊢
  case bool.bool => exact h
  case number.number => exact h
  case otherNumber.otherNumber => exact h
  case string.string => exact h
  case array.array xs ys => exact eq_of_sameItems h
  case object.object fs gs => exact eq_of_sameFields h

theorem eq_of_sameItems {vs ws : List JsonValue} (h : sameItems vs ws = true) : vs = ws := by
  match vs, ws with
  | [], [] => rfl
  | [], _ :: _ => cases h
  | _ :: _, [] => cases h
  | v :: vs, w :: ws =>
      rw [sameItems, Bool.and_eq_true] at h
      rw [eq_of_same h.1, eq_of_sameItems h.2]

theorem eq_of_sameFields {fs gs : List (String × JsonValue)} (h : sameFields fs gs = true) :
    fs = gs := by
  match fs, gs with
  | [], [] => rfl
  | [], _ :: _ => cases h
  | _ :: _, [] => cases h
  | (k, v) :: fs, (l, w) :: gs =>
      rw [sameFields, Bool.and_eq_true, Bool.and_eq_true, beq_iff_eq] at h
      rw [h.1.1, eq_of_same h.1.2, eq_of_sameFields h.2]

end

end JsonValue

namespace Json

/-- A field put where the order of the keys wants it. -/
def place (f : String × String) : List (String × String) → List (String × String)
  | [] => [f]
  | g :: gs => if f.1 < g.1 then f :: g :: gs else g :: place f gs

def indentation (depth : Nat) : String :=
  String.ofList (List.replicate (2 * depth) ' ')

def lines (opening closing : String) (depth : Nat) (items : List String) : String :=
  if items.isEmpty then opening ++ closing
  else
    opening ++ "\n" ++ ",\n".intercalate (items.map fun item => indentation (depth + 1) ++ item) ++
      "\n" ++ indentation depth ++ closing

mutual

/-- `to_string_pretty`: the keys in order, two blanks for each level. -/
def pretty (depth : Nat) : JsonValue → String
  | .null => "null"
  | .bool b => bool b
  | .number n => toString n
  | .otherNumber text => text
  | .string s => quote s
  | .array items => lines "[" "]" depth (prettyItems (depth + 1) items)
  | .object fields =>
      lines "\x7b" "\x7d" depth (((prettyFields (depth + 1) fields).foldr place []).map
        fun f => quote f.1 ++ ": " ++ f.2)

def prettyItems (depth : Nat) : List JsonValue → List String
  | [] => []
  | v :: vs => pretty depth v :: prettyItems depth vs

def prettyFields (depth : Nat) : List (String × JsonValue) → List (String × String)
  | [] => []
  | (k, v) :: fields => (k, pretty depth v) :: prettyFields depth fields

end

end Json

/-- JSON of the given documents. -/
@[reducible] def referenceValueJson (documents : List JsonValue) : ValueJson where
  toStringPretty v :=
    if documents.any fun d => d.same v then .ok (Json.pretty 0 v)
    else .error "not a sample document"
  fromStr := Json.read (Json.pretty 0) documents

theorem referenceValueJson_lawful {documents : List JsonValue}
    (hnodup : (documents.map (Json.pretty 0)).Nodup) :
    @LawfulValueJson (referenceValueJson documents) :=
  letI : ValueJson := referenceValueJson documents
  { fromStr_toStringPretty := by
      intro v text _ hprint
      have hprint : (if documents.any fun d => d.same v then Except.ok (Json.pretty 0 v)
          else .error "not a sample document") = (.ok text : Except String String) := hprint
      split at hprint
      · rename_i hany
        rcases List.any_eq_true.mp hany with ⟨d, hd, hsame⟩
        rw [JsonValue.eq_of_same hsame] at hd
        rw [← Except.ok.inj hprint]
        exact Json.read_of_nodup hnodup hd
      · cases hprint }

/-! ## Keys -/

/-- Argon2id on the inputs of a table. -/
@[reducible] def referenceArgon2 (keys : List ((Bytes × Salt × Argon2Params) × Bytes)) : Argon2 where
  argon2id password salt params :=
    match keys.find? fun e => e.1 == (password, salt, params) with
    | some e => .ok e.2
    | none => .error "not a sample password"

/-- The cipher with the given keys and nonces; whatever else is decrypted is refused. -/
@[reducible] def keyedCrypto (keyed : List (Bytes × Nonce)) : Crypto where
  hkdf := Hkdf.derive
  aeadEncrypt plaintext aad key nonce :=
    if (key, nonce) ∈ keyed then Aead.encrypt plaintext aad key nonce
    else .error "not a sample key"
  aeadDecrypt data nonce aad key :=
    if (key, nonce) ∈ keyed then Aead.decrypt data nonce aad key else .error "aead::Error"
  payloadToJson _ := .error "not a sample payload"
  payloadFromJson _ := .error "expected value at line 1 column 1"
  textFields _ := .error "expected value at line 1 column 1"

section

variable {keyed : List (Bytes × Nonce)}

theorem keyedCrypto_lawful : @LawfulCrypto (keyedCrypto keyed) :=
  letI : Crypto := keyedCrypto keyed
  { decrypt_encrypt := by
      intro plaintext aad key ciphertext nonce h
      have h : (if (key, nonce) ∈ keyed then Aead.encrypt plaintext aad key nonce
          else .error "not a sample key") = .ok ciphertext := h
      have hgoal : (if (key, nonce) ∈ keyed then Aead.decrypt ciphertext nonce aad key
          else .error "aead::Error") = .ok plaintext := by
        split at h
        · rename_i hmem
          rw [if_pos hmem]
          exact Aead.decrypt_encrypt h
        · cases h
      exact hgoal
    fromJson_toJson := by
      intro payload json h
      cases h
    textFields_of_fromJson := by
      intro payload json h
      cases h }

/-- No nonce is used with two keys. -/
theorem keyedCrypto_authentic (h : ∀ e ∈ keyed, ∀ e' ∈ keyed, e.2 = e'.2 → e.1 = e'.1) :
    @AeadAuthentic (keyedCrypto keyed) :=
  letI : Crypto := keyedCrypto keyed
  { wrong_key := by
      intro plaintext aad key key' ciphertext nonce hencrypt hne
      have hencrypt : (if (key, nonce) ∈ keyed then Aead.encrypt plaintext aad key nonce
          else .error "not a sample key") = .ok ciphertext := hencrypt
      split at hencrypt
      · rename_i hmem
        have hother : (key', nonce) ∉ keyed := fun hmem' => hne (h _ hmem' _ hmem rfl)
        have hgoal : (if (key', nonce) ∈ keyed then Aead.decrypt ciphertext nonce aad key'
            else .error "aead::Error") = .error "aead::Error" := if_neg hother
        exact ⟨_, hgoal⟩
      · cases hencrypt }

/-- The cipher with the given keys and nonces, and JSON of the given payloads. -/
@[reducible] def idealCrypto (keyed : List (Bytes × Nonce)) (payloads : List EncryptedPayload) :
    Crypto :=
  { referenceCrypto payloads with
    aeadEncrypt := (keyedCrypto keyed).aeadEncrypt
    aeadDecrypt := (keyedCrypto keyed).aeadDecrypt }

theorem idealCrypto_lawful {payloads : List EncryptedPayload}
    (h : @LawfulCrypto (referenceCrypto payloads)) : @LawfulCrypto (idealCrypto keyed payloads) :=
  letI : Crypto := idealCrypto keyed payloads
  { decrypt_encrypt := (@keyedCrypto_lawful keyed).decrypt_encrypt
    fromJson_toJson := h.fromJson_toJson
    textFields_of_fromJson := h.textFields_of_fromJson }

theorem idealCrypto_ideal {payloads : List EncryptedPayload}
    (h : ∀ e ∈ keyed, ∀ e' ∈ keyed, e.2 = e'.2 → e.1 = e'.1) :
    @IdealAead (idealCrypto keyed payloads) :=
  letI : Crypto := idealCrypto keyed payloads
  { one_key := by
      intro ciphertext aad key key' plaintext plaintext' nonce hopened hopened'
      have hkeyed : ∀ {k plain : Bytes},
          (if (k, nonce) ∈ keyed then Aead.decrypt ciphertext nonce aad k
            else .error "aead::Error") = .ok plain → (k, nonce) ∈ keyed := by
        intro k plain hplain
        by_contra hnot
        rw [if_neg hnot] at hplain
        cases hplain
      exact h _ (hkeyed hopened') _ (hkeyed hopened) rfl }

end

/-! ## A directory that answers in order -/

/-- A directory, and whether permissions may not be changed in it. -/
structure KeystoreBench where
  files : KeystoreDir
  denied : Bool

namespace KeystoreBench

/-- The answers, with fixed draws and at a fixed time. -/
def serve (salt : Salt) (nonce : Nonce) (now : DateTime) : Handler KeystoreI KeystoreBench
  | b, .readToString path =>
      match b.files.lookup path with
      | some file => (.ok file.content, b)
      | none => (.error "No such file or directory (os error 2)", b)
  | b, .create path => (.ok (), { b with files := b.files.insert path ⟨"", 0o644⟩ })
  | b, .writeAll path content =>
      (.ok (), { b with files := b.files.insert path ⟨content, 0o644⟩ })
  | b, .syncAll _ => (.ok (), b)
  | b, .rename source target =>
      match b.files.lookup source with
      | some file => (.ok (), { b with files := (b.files.erase source).insert target file })
      | none => (.error "No such file or directory (os error 2)", b)
  | b, .metadata path =>
      match b.files.lookup path with
      | some file => (.ok file.mode, b)
      | none => (.error "No such file or directory (os error 2)", b)
  | b, .setPermissions path mode =>
      if b.denied then (.error "Operation not permitted (os error 1)", b)
      else
        match b.files.lookup path with
        | some file => (.ok (), { b with files := b.files.insert path { file with mode := mode } })
        | none => (.error "No such file or directory (os error 2)", b)
  | b, .lockMemory => (.ok (), b)
  | b, .generateSalt => (salt, b)
  | b, .generateNonce => (nonce, b)
  | b, .now => (now, b)
  | b, .newUuid => (Uuid.filled 0, b)

theorem serve_env {salt : Salt} {nonce : Nonce} {now : DateTime} {b b' : KeystoreBench}
    {c : KeystoreCall} {answer : c.Answer} (h : (serve salt nonce now).env b c answer b') :
    keystoreEnv b.files c answer b'.files := by
  have hserve : serve salt nonce now b c = (answer, b') := h
  cases c with
  | readToString path =>
      simp only [serve] at hserve
      split at hserve
      · rename_i file hfile
        cases hserve
        exact ⟨rfl, Or.inl ⟨file, hfile, rfl⟩⟩
      · cases hserve
        exact ⟨rfl, Or.inr ⟨_, rfl⟩⟩
  | create path =>
      cases hserve
      exact Or.inl ⟨_, rfl, rfl, rfl⟩
  | writeAll path content =>
      cases hserve
      exact Or.inl ⟨_, rfl, Or.inl ⟨rfl, rfl⟩⟩
  | rename source target =>
      simp only [serve] at hserve
      split at hserve
      · rename_i file hfile
        cases hserve
        exact Or.inl ⟨file, hfile, rfl, rfl⟩
      · cases hserve
        exact Or.inr ⟨rfl, _, rfl⟩
  | metadata path =>
      simp only [serve] at hserve
      split at hserve
      · rename_i file hfile
        cases hserve
        exact ⟨rfl, Or.inl ⟨file, hfile, rfl⟩⟩
      · cases hserve
        exact ⟨rfl, Or.inr ⟨_, rfl⟩⟩
  | setPermissions path mode =>
      simp only [serve] at hserve
      split at hserve
      · cases hserve
        exact Or.inr ⟨rfl, _, rfl⟩
      · split at hserve
        · rename_i file hfile
          cases hserve
          exact Or.inl ⟨file, hfile, rfl, rfl⟩
        · cases hserve
          exact Or.inr ⟨rfl, _, rfl⟩
  | syncAll path =>
      cases hserve
      rfl
  | lockMemory =>
      cases hserve
      rfl
  | generateSalt =>
      cases hserve
      rfl
  | generateNonce =>
      cases hserve
      rfl
  | now =>
      cases hserve
      rfl
  | newUuid =>
      cases hserve
      rfl

/-- A program to its end. -/
def complete {α : Type} (salt : Salt) (nonce : Nonce) (now : DateTime) (p : KeystoreM α)
    (b : KeystoreBench) : Except String α × KeystoreBench :=
  run (serve salt nonce now) p.run b

def completeTrace {α : Type} (salt : Salt) (nonce : Nonce) (now : DateTime) (p : KeystoreM α)
    (b : KeystoreBench) : List (Event KeystoreI) :=
  runTrace (serve salt nonce now) p.run b

theorem returns_complete {α : Type} (salt : Salt) (nonce : Nonce) (now : DateTime)
    (p : KeystoreM α) (b : KeystoreBench) :
    p.run.Returns (completeTrace salt nonce now p b) (complete salt nonce now p b).1 :=
  returns_runTrace (serve salt nonce now) p.run b

theorem path_complete {α : Type} (salt : Salt) (nonce : Nonce) (now : DateTime)
    (p : KeystoreM α) (b : KeystoreBench) :
    Path keystoreEnv b.files (completeTrace salt nonce now p b)
      (complete salt nonce now p b).2.files :=
  (path_runTrace (serve salt nonce now) p.run b).map KeystoreBench.files
    fun _ _ _ _ hstep => serve_env hstep

end KeystoreBench

end OakKeyring
