import OakKeyring.Db.Frames
import OakKeyring.Lib.Logged
import OakKeyring.Samples.Ssh

/-!
# What the agent signs with

A request to sign is answered with the private key that the indexed record holds at that moment.
Nothing compares it with the key that was asked for, and nothing asks whether the record is still
live.
-/

namespace OakKeyring

open Effect Vault

namespace AgentServer

/-! ## One request -/

/-- The records that the request was given for the private key and the passphrase, and the number
of audit entries attempted. -/
structure SignNotes where
  reads : List (Option StoredRecord)
  audits : Nat

def SignNotes.read (m : SignNotes) (found : Option StoredRecord) : SignNotes :=
  { m with reads := m.reads ++ [found] }

def SignNotes.note (m : SignNotes) : Event VaultI → SignNotes
  | ⟨.db (.getRecord _), .ok found⟩ => m.read found
  | ⟨.db (.getRecord _), .error _⟩ => m.read none
  | ⟨.db (.insertAuditEntry .SshSign _ _ _), _⟩ => { m with audits := m.audits + 1 }
  | _ => m

def SignNotes.empty : SignNotes where
  reads := []
  audits := 0

def notes (trace : List (Event VaultI)) : SignNotes :=
  trace.foldl SignNotes.note .empty

abbrev notedEnv : Env VaultI (Tables × SignNotes) :=
  observing vaultEnv SignNotes.note

section Requests

variable [SshKeys] [Crypto] (v : VaultService)

omit [SshKeys] in
/-- A field of a row, without the database. -/
def fieldOf (stored : StoredRecord) (field : FieldSelector) : Except VaultError String := do
  if v.crypto.isUnlocked = false then
    throw .NotUnlocked
  let payload ← (payloadOf v stored).mapError VaultError.CryptoError
  extractField stored.credentialType payload field

omit [SshKeys] in
theorem fieldOf_unlocked (hopen : v.crypto.isUnlocked = true) (stored : StoredRecord)
    (field : FieldSelector) :
    fieldOf v stored field = ((payloadOf v stored).mapError VaultError.CryptoError).bind
      fun payload => extractField stored.credentialType payload field := by
  unfold fieldOf
  rw [hopen]
  rfl

omit [SshKeys] in
/-- A field of what a read found. -/
def readField (found : Option StoredRecord) (field : FieldSelector) : Option String :=
  found.bind fun stored => (fieldOf v stored field).toOption

/-- The signer that two reads give. -/
def signerOf (algo : SshAlgo) (reads : List (Option StoredRecord)) : Option SshSigner := do
  let pem ← readField v (reads[0]?.join) .Password
  let passphrase := (readField v (reads[1]?.join) .Passphrase).filter fun s => s ≠ ""
  (signerFromOpenssh algo pem passphrase).toOption

variable {v} {t : Tables} {m : SignNotes} {id : Uuid}

omit [SshKeys] [Crypto] in
/-- A read finds the row, or fails. -/
theorem wpe_getStoredRecord {Q : StoredRecord → Tables × SignNotes → Prop}
    {E : VaultError → Tables × SignNotes → Prop}
    (hok : ∀ stored, t.storedRecord id = some stored → Q stored (t, m.read (some stored)))
    (hnone : ∀ found e, found = none ∨ found = t.storedRecord id → found = none →
      E e (t, m.read found)) :
    wpe notedEnv Q E (getStoredRecord id) (t, m) := by
  unfold getStoredRecord
  rw [wpe_bind]
  refine wpe_call ?_ ?_
  · rintro answer found ⟨t', m'⟩ hanswer ⟨hstep, hnote⟩
    have hvalue : answer = .ok found := hanswer
    have hm : m' = m.note ⟨.db (.getRecord id), answer⟩ := hnote
    rw [hvalue] at hstep hm
    have hm : m' = m.read found := hm
    rcases hstep with ⟨expected, result, hrun, hsame, heq⟩ | ⟨⟨e, heq⟩, -⟩
    -- the row that the database gives, or none, is noted
    · have hresult : result = found := (Except.ok.inj heq).symm
      have hexpected : expected = result := hsame.symm
      have hrow : (t.storedRecord id, t) = (expected, t') := Except.ok.inj hrun
      have htables : t' = t := (congrArg Prod.snd hrow).symm
      have hfound : t.storedRecord id = found :=
        (congrArg Prod.fst hrow).trans (hexpected.trans hresult)
      rw [htables, hm]
      refine wpe_required ?_ ?_
      · intro stored hstored
        have hstored : found = some stored := hstored
        rw [hstored] at hfound ⊢
        exact hok stored hfound
      · intro hmissing
        exact hnone found _ (Or.inr hfound.symm) hmissing
    · cases heq
  · rintro answer e ⟨t', m'⟩ hanswer ⟨hstep, hnote⟩
    have hvalue : answer = .error e := hanswer
    have hm : m' = m.note ⟨.db (.getRecord id), answer⟩ := hnote
    rw [hvalue] at hstep hm
    have hm : m' = m.read none := hm
    rcases hstep with ⟨expected, result, hrun, hsame, heq⟩ | ⟨-, htables⟩
    · cases heq
    · have htables : t' = t := htables
      rw [htables, hm]
      exact hnone none _ (Or.inl rfl) rfl

omit [SshKeys] in
/-- A field is what the row holds; a locked vault reads nothing. -/
theorem wpe_decryptFieldNoAudit {field : FieldSelector} {Q : String → Tables × SignNotes → Prop}
    {E : VaultError → Tables × SignNotes → Prop} (hlocked : ∀ e, v.crypto.isUnlocked = false →
      E e (t, m))
    (hok : ∀ found value, found = none ∨ found = t.storedRecord id →
      readField v found field = some value → Q value (t, m.read found))
    (hnone : ∀ found e, found = none ∨ found = t.storedRecord id →
      readField v found field = none → E e (t, m.read found)) :
    wpe notedEnv Q E (decryptFieldNoAudit v id field) (t, m) := by
  unfold decryptFieldNoAudit decryptFieldWithAudit
  cases hopen : v.crypto.isUnlocked with
  | false =>
      -- a locked vault answers before it asks the database
      have hrequire : requireUnlocked v = (throw .NotUnlocked : VaultM Unit) := by
        unfold requireUnlocked
        rw [hopen]
        rfl
      rw [hrequire]
      exact hlocked _ hopen
  | true =>
      have hrequire : requireUnlocked v = (pure () : VaultM Unit) := by
        unfold requireUnlocked
        rw [hopen]
        rfl
      rw [hrequire, pure_bind, wpe_bind]
      refine wpe_getStoredRecord (fun stored hstored => ?_) (fun found e hfound hmissing => ?_)
      -- what is read of the row is what the two steps make of it
      · have hread : readField v (some stored) field =
            (((payloadOf v stored).mapError VaultError.CryptoError).bind
              fun payload => extractField stored.credentialType payload field).toOption := by
          unfold readField
          rw [Option.bind_some, fieldOf_unlocked v hopen]
        rw [wpe_bind]
        refine wpe_crypto (fun payload hpayload => ?_) (fun e he => ?_)
        · rw [hpayload] at hread
          have hread : readField v (some stored) field =
            (extractField stored.credentialType payload field).toOption := hread
          rw [wpe_bind]
          cases hvalue : extractField stored.credentialType payload field with
          | ok value =>
              rw [hvalue] at hread
              exact hok (some stored) value (Or.inr hstored.symm) hread
          | error e =>
              rw [hvalue] at hread
              exact hnone (some stored) e (Or.inr hstored.symm) hread
        · rw [he] at hread
          exact hnone (some stored) _ (Or.inr hstored.symm) hread
      · refine hnone found e hfound ?_
        rw [hmissing]
        rfl

/-! ### Signing -/

/-- The signer of two reads. -/
theorem signerOf_pair {algo : SshAlgo} {first second : Option StoredRecord} {pem : String}
    (hfirst : readField v first .Password = some pem) :
    signerOf v algo [first, second] = (signerFromOpenssh algo pem
      ((readField v second .Passphrase).filter fun s => s ≠ "")).toOption := by
  unfold signerOf
  have hread : readField v ([first, second][0]?.join) .Password = some pem := hfirst
  rw [hread]
  rfl

/-- The reads of a request are of the record it signs for. -/
def SignNotes.Of (m : SignNotes) (t : Tables) (id : Uuid) : Prop :=
  ∀ found ∈ m.reads, found = none ∨ found = t.storedRecord id

/-- A signature is made with the signer that the reads give, and there is one when that signer
signs. -/
theorem wpe_sign {data : Bytes} {flags : SignFlags} {algo : SshAlgo} :
    wpe notedEnv
      (fun sig u => u.1 = t ∧ u.2.audits = 0 ∧ u.2.Of t id ∧
        ∃ signer, signerOf v algo u.2.reads = some signer ∧ signer.sign data flags = .ok sig)
      (fun _ u => u.1 = t ∧ u.2.audits = 0 ∧
        ∀ signer sig, signerOf v algo u.2.reads = some signer → signer.sign data flags ≠ .ok sig)
      (sign v id data flags algo) (t, .empty) := by
  unfold sign
  rw [wpe_bind]
  refine wpe_mapError (wpe_decryptFieldNoAudit ?_ ?_ ?_)
  · intro e _
    refine ⟨rfl, rfl, ?_⟩
    intro signer sig hsigner
    cases hsigner
  · intro found pem hfound hpem
    rw [wpe_bind]
    refine wpe_mapError (wpe_attempt ?_)
    -- whatever the second read gives, the signer is that of both reads
    have hbuilt : ∀ (second : Option StoredRecord) (result : Except VaultError String),
        second = none ∨ second = t.storedRecord id →
        result.toOption = readField v second .Passphrase →
        wpe notedEnv
          (fun sig u => u.1 = t ∧ u.2.audits = 0 ∧ u.2.Of t id ∧
            ∃ signer, signerOf v algo u.2.reads = some signer ∧ signer.sign data flags = .ok sig)
          (fun _ u => u.1 = t ∧ u.2.audits = 0 ∧
            ∀ signer sig, signerOf v algo u.2.reads = some signer →
              signer.sign data flags ≠ .ok sig)
          (do
            let signer ← signed ((signerFromOpenssh algo pem (passphraseOf result)).mapError
              SignError.BuildSigner)
            signed ((signer.sign data flags).mapError SignError.Sign))
          (t, { reads := [found, second], audits := 0 }) := by
      intro second result hsecond hresult
      have hsigner : signerOf v algo [found, second] =
          (signerFromOpenssh algo pem (passphraseOf result)).toOption := by
        rw [signerOf_pair hpem, ← hresult]
        rfl
      have hof : (SignNotes.mk [found, second] 0).Of t id := by
        intro row hrow
        have hrow : row = found ∨ row = second := by
          simpa using hrow
        rcases hrow with hrow | hrow
        · rw [hrow]
          exact hfound
        · rw [hrow]
          exact hsecond
      cases hbuild : signerFromOpenssh algo pem (passphraseOf result) with
      | error e =>
          rw [hbuild] at hsigner
          refine ⟨rfl, rfl, ?_⟩
          intro signer sig hsome
          rw [hsigner] at hsome
          cases hsome
      | ok signer =>
          rw [hbuild] at hsigner
          have hsigner : signerOf v algo [found, second] = some signer := hsigner
          change wpe notedEnv _ _ (signed ((signer.sign data flags).mapError SignError.Sign)) _
          cases hsign : signer.sign data flags with
          | error e =>
              refine ⟨rfl, rfl, ?_⟩
              intro signer' sig hsome
              have hsome : signerOf v algo [found, second] = some signer' := hsome
              rw [hsigner] at hsome
              rw [← Option.some.inj hsome, hsign]
              intro heq
              cases heq
          | ok sig => exact ⟨rfl, rfl, hof, signer, hsigner, hsign⟩
    have hopen : v.crypto.isUnlocked ≠ false := by
      intro hlocked
      cases found with
      | none => cases hpem
      | some stored =>
          have hnone : readField v (some stored) .Password = none := by
            unfold readField fieldOf
            rw [Option.bind_some, hlocked]
            rfl
          rw [hnone] at hpem
          cases hpem
    refine wpe_decryptFieldNoAudit (fun _ hlocked => absurd hlocked hopen) ?_ ?_
    · intro second value hsecond hvalue
      exact hbuilt second (.ok value) hsecond hvalue.symm
    · intro second e hsecond hmissing
      exact hbuilt second (.error e) hsecond hmissing.symm
  · intro found e hfound hpem
    refine ⟨rfl, rfl, ?_⟩
    intro signer sig hsigner
    have hnone : signerOf v algo [found] = none := by
      unfold signerOf
      have hfirst : readField v ([found][0]?.join) .Password = none := hpem
      rw [hfirst]
      rfl
    have hsigner : signerOf v algo [found] = some signer := hsigner
    rw [hnone] at hsigner
    cases hsigner

/-- The record has a private key of the kind that the algorithm asks for, and this is the public
key that belongs to it. It is opened with the passphrase of the record, or without one. -/
def HoldsKey (v : VaultService) (stored : StoredRecord) (algo : SshAlgo) (half : Bytes) : Prop :=
  ∃ pem passphrase key, fieldOf v stored .Password = .ok pem ∧
    (passphrase = none ∨ passphrase = passphraseOf (fieldOf v stored .Passphrase)) ∧
      openPrivateKey pem passphrase = .ok key ∧ PublicHalf algo key half

omit [SshKeys] in
theorem readField_some {found : Option StoredRecord} {field : FieldSelector} {value : String}
    (h : readField v found field = some value) :
    ∃ stored, found = some stored ∧ fieldOf v stored field = .ok value := by
  rcases Option.bind_eq_some_iff.mp h with ⟨stored, hfound, hvalue⟩
  refine ⟨stored, hfound, ?_⟩
  cases hfield : fieldOf v stored field with
  | ok value' =>
      rw [hfield] at hvalue
      exact congrArg Except.ok (Option.some.inj hvalue)
  | error e =>
      rw [hfield] at hvalue
      cases hvalue

/-- What signs is a private key of the record, with the public key that belongs to it. -/
theorem holdsKey_of_signerOf {algo : SshAlgo} {reads : List (Option StoredRecord)}
    {signer : SshSigner} (hsigner : signerOf v algo reads = some signer)
    (hreads : ∀ found ∈ reads, found = none ∨ found = t.storedRecord id) :
    ∃ stored, t.storedRecord id = some stored ∧ HoldsKey v stored algo signer.publicBlob := by
  rcases Option.bind_eq_some_iff.mp hsigner with ⟨pem, hpem, hbuilt⟩
  rcases readField_some hpem with ⟨stored, hfirst, hpassword⟩
  have hstored : t.storedRecord id = some stored := by
    have hread : reads[0]? = some (some stored) := Option.join_eq_some_iff.mp hfirst
    rcases hreads _ (List.mem_of_getElem? hread) with hnone | hrow
    · cases hnone
    · exact hrow.symm
  have hok : signerFromOpenssh algo pem
      ((readField v (reads[1]?.join) .Passphrase).filter fun s => s ≠ "") = .ok signer := by
    have hbuilt : (signerFromOpenssh algo pem ((readField v (reads[1]?.join) .Passphrase).filter
      fun s => s ≠ "")).toOption = some signer := hbuilt
    cases hresult : signerFromOpenssh algo pem
        ((readField v (reads[1]?.join) .Passphrase).filter fun s => s ≠ "") with
    | ok signer' =>
        rw [hresult] at hbuilt
        exact congrArg Except.ok (Option.some.inj hbuilt)
    | error e =>
        rw [hresult] at hbuilt
        cases hbuilt
  rcases publicHalf_signerFromOpenssh hok with ⟨key, hopened, hhalf⟩
  refine ⟨stored, hstored, pem, _, key, hpassword, ?_, hopened, hhalf⟩
  -- the second read finds the row again, or nothing
  cases hsecond : reads[1]?.join with
  | none => exact Or.inl rfl
  | some again =>
      have hread : reads[1]? = some (some again) := Option.join_eq_some_iff.mp hsecond
      rcases hreads _ (List.mem_of_getElem? hread) with hnone | hrow
      · cases hnone
      · have hsame : again = stored := Option.some.inj (hrow.trans hstored)
        rw [hsame]
        exact Or.inr rfl

/-! ### Dispatching -/

/-- The request to sign that a message is. -/
def decodeRequest : Bytes → Option SignRequest
  | [] => none
  | msgType :: body => if msgType = SSH_AGENTC_SIGN_REQUEST then decodeSignRequest body else none

/-- A signature was due: the record that the index names gives a signer that signs. -/
def Due (server : AgentServer) (request : Bytes) (reads : List (Option StoredRecord))
    (r : SignRequest) (id : Uuid) (signer : SshSigner) (sig : Bytes) : Prop :=
  decodeRequest request = some r ∧ ∃ algo, server.blobIndex r.keyBlob = some (id, algo) ∧
    signerOf server.vault algo reads = some signer ∧ signer.sign r.data r.flags = .ok sig

/-- What a reply is, with the reads and the audit entries of its request. -/
def Answered (server : AgentServer) (before : Tables) (request reply : Bytes) (m : SignNotes) :
    Prop :=
  (reply.head? ≠ some SSH_AGENT_SIGN_RESPONSE ∧ m.audits = 0 ∧
    ∀ r id signer sig, ¬ Due server request m.reads r id signer sig) ∨
  ∃ r id signer sig, Due server request m.reads r id signer sig ∧
    m.Of before id ∧ reply = signResponse sig ∧ m.audits = 1

omit [SshKeys] [Crypto] in
/-- An audit entry is attempted once, whether it is written or not. -/
theorem wpe_writeAudit {u : Tables × SignNotes} {name detail : Option String} :
    wpe notedEnv (fun _ u' => u'.2 = { u.2 with audits := u.2.audits + 1 })
      (fun _ u' => u'.2 = { u.2 with audits := u.2.audits + 1 })
      (query (.insertAuditEntry .SshSign (some id) name detail)) u := by
  refine wpe_call ?_ ?_
  · intro answer result u' _ hstep
    exact hstep.2
  · intro answer e u' _ hstep
    exact hstep.2

theorem wp_dispatch {server : AgentServer} {request : Bytes} :
    wp notedEnv (fun reply u => Answered server t request reply u.2)
      (dispatch server request) (t, .empty) := by
  cases request with
  | nil =>
      -- an empty message asks for nothing
      refine Or.inl ⟨by decide, rfl, ?_⟩
      rintro r id signer sig ⟨hdecode, -⟩
      cases hdecode
  | cons msgType body =>
      unfold dispatch
      by_cases hlist : msgType = SSH_AGENTC_REQUEST_IDENTITIES
      · rw [hlist]
        -- the keys are listed, and nothing is signed
        refine Or.inl ⟨?_, rfl, ?_⟩
        · intro hhead
          cases hhead
        · rintro r id signer sig ⟨hdecode, -⟩
          cases hdecode
      · by_cases hsign : msgType = SSH_AGENTC_SIGN_REQUEST
        · simp only [if_neg hlist, if_pos hsign]
          have hdecode : decodeRequest (msgType :: body) = decodeSignRequest body :=
            if_pos hsign
          unfold handleSign
          cases hbody : decodeSignRequest body with
          | none =>
              -- the request cannot be read
              refine Or.inl ⟨by decide, rfl, ?_⟩
              rintro r id signer sig ⟨hsome, -⟩
              rw [hdecode, hbody] at hsome
              cases hsome
          | some r =>
              simp only
              cases hindex : server.blobIndex r.keyBlob with
              | none =>
                  -- no key that was offered
                  refine Or.inl ⟨by decide, rfl, ?_⟩
                  rintro r' id signer sig ⟨hsome, algo, hfound, -⟩
                  rw [hdecode, hbody] at hsome
                  rw [← Option.some.inj hsome, hindex] at hfound
                  cases hfound
              | some entry =>
                  rcases entry with ⟨id, algo⟩
                  simp only
                  rw [wp_bind]
                  refine wp_mono ?_ wpe_sign
                  intro outcome u hend
                  cases outcome with
                  | error e =>
                      rcases hend with ⟨-, haudits, hnever⟩
                      refine Or.inl ⟨by decide, haudits, ?_⟩
                      rintro r' id' signer sig ⟨hsome, algo', hfound, hsigner, hsig⟩
                      rw [hdecode, hbody] at hsome
                      rw [← Option.some.inj hsome] at hfound hsig
                      rw [hindex] at hfound
                      cases hfound
                      exact hnever signer sig hsigner hsig
                  | ok sig =>
                      -- signed, with one entry in the audit log whether or not it can be written
                      rcases hend with ⟨-, haudits, hof, signer, hsigner, hsig⟩
                      simp only
                      rw [wp_bind]
                      refine wp_mono ?_ (wpe_writeAudit (u := u))
                      intro written u' hnoted
                      have hnoted : u'.2 = { u.2 with audits := u.2.audits + 1 } := by
                        cases written with
                        | ok _ => exact hnoted
                        | error _ => exact hnoted
                      have hanswered : Answered server t (msgType :: body) (signResponse sig)
                          u'.2 := by
                        rw [hnoted]
                        exact Or.inr ⟨r, id, signer, sig,
                          ⟨hdecode.trans hbody, algo, hindex, hsigner, hsig⟩, hof, rfl,
                          congrArg (· + 1) haudits⟩
                      exact hanswered
        · simp only [if_neg hlist, if_neg hsign]
          -- any other request is answered with a failure
          refine Or.inl ⟨by decide, rfl, ?_⟩
          rintro r id signer sig ⟨hdecode, -⟩
          unfold decodeRequest at hdecode
          simp only [if_neg hsign] at hdecode
          cases hdecode

/-! ## What a request may rely on -/

/-- The public key of a record, as the agent loads it. -/
def PublicKeyIs (v : VaultService) (t : Tables) (id : Uuid) (blob : Bytes) : Prop :=
  ∃ stored openssh algo, t.storedRecord id = some stored ∧
    fieldOf v stored .Username = .ok openssh ∧ parsePublicKey openssh = .ok (algo, blob)

/-- A live SSH record that the filter admits, with the given public key. -/
def Advertised (v : VaultService) (filter : IdentityFilter) (t : Tables) (id : Uuid)
    (blob : Bytes) : Prop :=
  PublicKeyIs v t id blob ∧ ∃ stored name, t.storedRecord id = some stored ∧
    stored.deleted = false ∧ stored.credentialType = .Ssh ∧ recordNameOf v stored = .ok name ∧
      filter.admits name = true

omit [SshKeys] in
theorem wpe_decryptField_username :
    wpe vaultEnv
      (fun value u => u = t ∧ ∃ stored, t.storedRecord id = some stored ∧
        fieldOf v stored .Username = .ok value)
      (fun _ _ => True) (decryptField v id .Username) t := by
  have hplain : decryptField v id .Username = decryptFieldNoAudit v id .Username := rfl
  rw [hplain]
  have hnoted : wpe notedEnv
      (fun value u => u.1 = t ∧ ∃ stored, t.storedRecord id = some stored ∧
        fieldOf v stored .Username = .ok value)
      (fun _ _ => True) (decryptFieldNoAudit v id .Username) (t, .empty) := by
    refine wpe_decryptFieldNoAudit (fun _ _ => trivial) ?_ fun _ _ _ _ => trivial
    intro found value hfound hvalue
    refine ⟨rfl, ?_⟩
    cases found with
    | none => cases hvalue
    | some stored =>
        -- the row that was found is the one of the vault
        rcases hfound with hnone | hrow
        · cases hnone
        · refine ⟨stored, hrow.symm, ?_⟩
          unfold readField at hvalue
          rw [Option.bind_some] at hvalue
          cases hfield : fieldOf v stored .Username with
          | error e =>
              rw [hfield] at hvalue
              cases hvalue
          | ok value' =>
              rw [hfield] at hvalue
              exact congrArg Except.ok (Option.some.inj hvalue)
  exact wpe_of_observing hnoted (fun _ _ h => h) fun _ _ _ => trivial

theorem wpe_loadIdentity {filter : IdentityFilter} {identities : List LoadedIdentity}
    {record : StoredRecord} (hrecord : t.storedRecord record.id = some record)
    (hlive : record.deleted = false)
    (h : ∀ i ∈ identities, Advertised v filter t i.recordId i.publicBlob) :
    wpe vaultEnv
      (fun identities' u => u = t ∧
        ∀ i ∈ identities', Advertised v filter t i.recordId i.publicBlob)
      (fun _ _ => True) (loadIdentity v filter identities record) t := by
  unfold loadIdentity
  by_cases htype : record.credentialType = .Ssh
  · rw [if_neg (not_not.mpr htype), wpe_bind]
    refine wpe_mapError (wpe_crypto (fun name hname => ?_) fun _ _ => trivial)
    refine wpe_ite (fun _ => ⟨rfl, h⟩) fun hadmits => ?_
    have hadmits : filter.admits name = true := by
      simpa using hadmits
    rw [wpe_bind]
    refine wpe_mapError (wpe_mono ?_ (fun _ _ _ => trivial) wpe_decryptField_username)
    rintro openssh u ⟨hu, stored, hstored, hfield⟩
    have hsame : stored = record := Option.some.inj (hstored.symm.trans hrecord)
    rw [hsame] at hfield
    rw [hu, wpe_bind]
    cases hparse : parsePublicKey openssh with
    | error e => trivial
    | ok key =>
        refine ⟨rfl, ?_⟩
        intro i hi
        -- the identities so far, and the one of this record
        rcases List.mem_append.mp hi with hold | hnew
        · exact h i hold
        · rw [List.mem_singleton.mp hnew]
          exact ⟨⟨record, openssh, key.1, hrecord, hfield, hparse⟩,
            record, name, hrecord, hlive, htype, hname, hadmits⟩
  -- a record of another type has no key
  · rw [if_pos htype]
    exact ⟨rfl, h⟩

/-- At its start the agent offers the keys of live and admitted records. -/
theorem wpe_start {filter : IdentityFilter} :
    wpe vaultEnv
      (fun server u => u = t ∧ server.vault = v ∧
        ∀ i ∈ server.identities, Advertised v filter t i.recordId i.publicBlob)
      (fun _ _ => True) (start v filter) t := by
  unfold start loadSshIdentities listAllStoredRecords
  rw [wpe_bind, wpe_bind]
  have hrun : DbOp.run (.listRecords .active) t =
      .ok (t.storedRecords.filter RecordQuery.active.selects, t) := rfl
  refine wpe_mapError (wpe_query_of_run hrun ?_ fun _ => trivial)
  intro (records : List StoredRecord) hsame
  have hperm : records.Perm (t.storedRecords.filter RecordQuery.active.selects) := hsame
  refine wpe_mono ?_ (fun _ _ _ => trivial)
    (wpe_foldlM (E := fun _ _ => True) (P := fun _ identities u => u = t ∧
      ∀ i ∈ identities, Advertised v filter t i.recordId i.publicBlob) ⟨rfl, ?_⟩ ?_)
  · rintro identities u ⟨hu, hall⟩
    exact ⟨hu, rfl, hall⟩
  · intro i hi
    cases hi
  · rintro done record rest identities u hsplit ⟨hu, hall⟩
    -- every record that is loaded was listed, and only live ones are
    have hmem : record ∈ records := by
      rw [hsplit]
      simp
    have hfilter := List.mem_filter.mp (hperm.mem_iff.mp hmem)
    have hlive : record.deleted = false := by
      simpa [RecordQuery.selects] using hfilter.2
    have hstored : t.storedRecord record.id = some record := by
      rcases Tables.mem_storedRecords hfilter.1 with ⟨row, hrow, hvalue⟩
      unfold Tables.storedRecord
      rw [hrow, Option.map_some, ← hvalue]
    rw [hu]
    exact wpe_loadIdentity hstored hlive hall

/-- One message and its reply. -/
structure Exchange where
  before : Tables
  request : Bytes
  trace : List (Event VaultI)
  reply : Bytes

/-- The asked key is that of a live and admitted record, the signature is made with the private key
that belongs to it, the record that was used has exactly this public key, and there is one audit
entry for it. Where there is no signature there is no entry. -/
structure Exchange.Faithful (server : AgentServer) (filter : IdentityFilter) (e : Exchange) :
    Prop where
  audited : (notes e.trace).audits =
    if e.reply.head? = some SSH_AGENT_SIGN_RESPONSE then 1 else 0
  signed : e.reply.head? = some SSH_AGENT_SIGN_RESPONSE → ∃ r id signer sig,
    Due server e.request (notes e.trace).reads r id signer sig ∧
      (notes e.trace).Of e.before id ∧ e.reply = signResponse sig ∧
        (∃ id', Advertised server.vault filter e.before id' r.keyBlob) ∧
          PublicKeyIs server.vault e.before id r.keyBlob ∧ signer.publicBlob = r.keyBlob

/-- In the vault before the request: when the record that the index names for the asked key has a
private key of the indexed kind, that one belongs to the asked key, the record has the asked key as
its public key, and a live and admitted record has it. -/
def Exchange.Kept (server : AgentServer) (filter : IdentityFilter) (e : Exchange) : Prop :=
  ∀ r id algo stored half, decodeRequest e.request = some r →
    server.blobIndex r.keyBlob = some (id, algo) → e.before.storedRecord id = some stored →
      HoldsKey server.vault stored algo half → half = r.keyBlob ∧
        PublicKeyIs server.vault e.before id r.keyBlob ∧
          ∃ id', Advertised server.vault filter e.before id' r.keyBlob

/-- An agent at work: between two messages the vault changes in any way. -/
inductive Serving (server : AgentServer) : Tables → List Exchange → Tables → Prop
  | stop (t : Tables) : Serving server t [] t
  | edited {t t' u : Tables} {log : List Exchange} (hrest : Serving server t' log u) :
      Serving server t log u
  | answered {t t' u : Tables} {request reply : Bytes} {trace : List (Event VaultI)}
      {log : List Exchange} (hret : (dispatch server request).Returns trace reply)
      (hpath : Path vaultEnv t trace t') (hrest : Serving server t' log u) :
      Serving server t ({ before := t, request := request, trace := trace, reply := reply } :: log) u

omit [SshKeys] [Crypto] in
theorem head_signResponse (sig : Bytes) :
    (signResponse sig).head? = some SSH_AGENT_SIGN_RESPONSE :=
  rfl

section Exchanges

variable {server : AgentServer} {filter : IdentityFilter} {e : Exchange}

/-- A request is answered faithfully from a vault that has kept what the index says of its key. -/
theorem faithful_of_answered (h : Answered server e.before e.request e.reply (notes e.trace))
    (hkept : e.Kept server filter) : e.Faithful server filter := by
  rcases h with ⟨hhead, haudits, -⟩ | ⟨r, id, signer, sig, hdue, hof, hreply, haudits⟩
  · constructor
    · rw [if_neg hhead]
      exact haudits
    · exact fun hresponse => absurd hresponse hhead
  · have hhead : e.reply.head? = some SSH_AGENT_SIGN_RESPONSE := by
      rw [hreply]
      exact head_signResponse sig
    rcases hdue with ⟨hdecode, algo, hindex, hsigner, hsign⟩
    rcases holdsKey_of_signerOf hsigner hof with ⟨stored, hstored, hholds⟩
    rcases hkept r id algo stored _ hdecode hindex hstored hholds with
      ⟨hhalf, hpublic, hadvertised⟩
    constructor
    · rw [if_pos hhead]
      exact haudits
    · intro _
      exact ⟨r, id, signer, sig, ⟨hdecode, algo, hindex, hsigner, hsign⟩, hof, hreply, hadvertised,
        hpublic, hhalf⟩

omit [SshKeys] [Crypto] in
theorem mem_of_blobIndex {blob : Bytes} {algo : SshAlgo}
    (h : server.blobIndex blob = some (id, algo)) :
    ∃ i ∈ server.identities, i.publicBlob = blob ∧ i.recordId = id ∧ i.algo = algo := by
  unfold blobIndex at h
  rcases Option.map_eq_some_iff.mp h with ⟨i, hfind, hentry⟩
  have hmem := List.mem_of_find?_eq_some hfind
  have hblob := List.find?_some hfind
  exact ⟨i, List.mem_reverse.mp hmem, beq_iff_eq.mp hblob, congrArg Prod.fst hentry,
    congrArg Prod.snd hentry⟩

/-- Where the offered keys are still advertised, it only matters that the private keys belong to
them. -/
theorem kept_of_advertised
    (hkept : ∀ i ∈ server.identities, Advertised server.vault filter e.before i.recordId i.publicBlob)
    (hpairs : ∀ i ∈ server.identities, ∀ stored half,
      e.before.storedRecord i.recordId = some stored → HoldsKey server.vault stored i.algo half →
        half = i.publicBlob) :
    e.Kept server filter := by
  intro r id algo stored half _ hindex hstored hholds
  rcases mem_of_blobIndex hindex with ⟨i, hi, hblob, hid, halgo⟩
  rw [← hid] at hstored ⊢
  rw [← halgo] at hholds
  rw [← hblob]
  exact ⟨hpairs i hi stored half hstored hholds, (hkept i hi).1, i.recordId, hkept i hi⟩

/-- Every exchange of an agent at work was answered. -/
theorem Serving.answered_of_mem {log : List Exchange} {u : Tables}
    (hserving : Serving server t log u) :
    ∀ e ∈ log, Answered server e.before e.request e.reply (notes e.trace) := by
  induction hserving with
  | stop t =>
      intro e he
      cases he
  | edited _ ih => exact ih
  | answered hret hpath _ ih =>
      intro e he
      rcases List.mem_cons.mp he with heq | hrest
      · rw [heq]
        exact (wp_iff notedEnv _ _ _).mp wp_dispatch _ _ _ hret hpath.observing
      · exact ih e hrest

/-- Whatever is edited between the messages, the agent is faithful if before each request the vault
has kept what the index says of the asked key. -/
theorem serving_faithful {log : List Exchange} {u : Tables} (hserving : Serving server t log u)
    (hkept : ∀ e ∈ log, e.Kept server filter) : ∀ e ∈ log, e.Faithful server filter :=
  fun e he => faithful_of_answered (hserving.answered_of_mem e he) (hkept e he)

/-- A faithful signature verifies under the asked key. -/
theorem Exchange.Faithful.verifies {verify : Bytes → Bytes → Bytes → Prop}
    (hscheme : ∀ (signer : SshSigner) data flags sig, signer.sign data flags = .ok sig →
      verify signer.publicBlob data sig)
    (h : e.Faithful server filter) (hresponse : e.reply.head? = some SSH_AGENT_SIGN_RESPONSE) :
    ∃ r sig, decodeRequest e.request = some r ∧ e.reply = signResponse sig ∧
      verify r.keyBlob r.data sig := by
  rcases h.signed hresponse with ⟨r, id, signer, sig, hdue, -, hreply, -, -, hblob⟩
  rcases hdue with ⟨hdecode, algo, -, -, hsign⟩
  refine ⟨r, sig, hdecode, hreply, ?_⟩
  rw [← hblob]
  exact hscheme signer r.data r.flags sig hsign

/-! ## Undisturbed requests -/

omit [SshKeys] in
theorem returns_decryptFieldNoAudit (hopen : v.crypto.isUnlocked = true) (id : Uuid)
    (stored : StoredRecord) (field : FieldSelector) :
    (decryptFieldNoAudit v id field).run.Returns [⟨VaultCall.db (.getRecord id), .ok (some stored)⟩]
      (fieldOf v stored field) := by
  have hrequire : requireUnlocked v = (pure () : VaultM Unit) := by
    unfold requireUnlocked
    rw [hopen]
    rfl
  have hfound : (getStoredRecord id).run.Returns
      [⟨VaultCall.db (.getRecord id), .ok (some stored)⟩] (.ok stored) :=
    ⟨.ok (some stored), [], rfl, rfl, rfl⟩
  unfold decryptFieldNoAudit decryptFieldWithAudit
  rw [hrequire, pure_bind, fieldOf_unlocked v hopen]
  refine returns_bind_of_ok (u := []) hfound ?_
  cases payloadOf v stored with
  | error e => exact ⟨rfl, rfl⟩
  | ok payload =>
      change (extracted (extractField stored.credentialType payload field) >>=
        fun value => (pure value : VaultM String)).run.Returns []
          (extractField stored.credentialType payload field)
      cases extractField stored.credentialType payload field with
      | error e => exact ⟨rfl, rfl⟩
      | ok value => exact ⟨rfl, rfl⟩

/-- What an undisturbed request asks the database. -/
def undisturbed (server : AgentServer) (r : SignRequest) (id : Uuid) (algo : SshAlgo)
    (stored : StoredRecord) : List (Event VaultI) :=
  [⟨VaultCall.db (.getRecord id), .ok (some stored)⟩,
    ⟨VaultCall.db (.getRecord id), .ok (some stored)⟩,
    ⟨VaultCall.db (.insertAuditEntry .SshSign (some id)
      ((server.identities.find? fun i => i.recordId == id).map LoadedIdentity.name)
      (some (algo.wireName r.flags))), .ok ()⟩]

theorem returns_sign {data : Bytes} {flags : SignFlags} {algo : SshAlgo} {stored : StoredRecord}
    {pem : String} {signer : SshSigner} {sig : Bytes} (hopen : v.crypto.isUnlocked = true)
    (hpem : fieldOf v stored .Password = .ok pem)
    (hsigner : signerFromOpenssh algo pem (passphraseOf (fieldOf v stored .Passphrase)) =
      .ok signer)
    (hsign : signer.sign data flags = .ok sig) :
    (sign v id data flags algo).run.Returns
      [⟨VaultCall.db (.getRecord id), .ok (some stored)⟩,
        ⟨VaultCall.db (.getRecord id), .ok (some stored)⟩] (.ok sig) := by
  have hfirst := returns_mapError SignError.DecryptPrivateKey
    (returns_decryptFieldNoAudit hopen id stored .Password)
  rw [hpem] at hfirst
  have hsecond := returns_mapError SignError.DecryptPrivateKey
    (returns_attempt (returns_decryptFieldNoAudit hopen id stored .Passphrase))
  unfold sign
  refine returns_bind_of_ok (u := [_]) hfirst (returns_bind_of_ok (u := []) hsecond ?_)
  rw [hsigner]
  change (signed ((signer.sign data flags).mapError SignError.Sign)).run.Returns [] (.ok sig)
  rw [hsign]
  exact ⟨rfl, rfl⟩

/-- A request whose record is found and whose key signs. -/
theorem returns_dispatch {body : Bytes} {r : SignRequest} {algo : SshAlgo} {stored : StoredRecord}
    {pem : String} {signer : SshSigner} {sig : Bytes}
    (hdecode : decodeSignRequest body = some r)
    (hindex : server.blobIndex r.keyBlob = some (id, algo))
    (hopen : server.vault.crypto.isUnlocked = true)
    (hpem : fieldOf server.vault stored .Password = .ok pem)
    (hsigner : signerFromOpenssh algo pem (passphraseOf (fieldOf server.vault stored .Passphrase)) =
      .ok signer)
    (hsign : signer.sign r.data r.flags = .ok sig) :
    (dispatch server (SSH_AGENTC_SIGN_REQUEST :: body)).Returns
      (undisturbed server r id algo stored) (signResponse sig) := by
  have hdispatch : dispatch server (SSH_AGENTC_SIGN_REQUEST :: body) = handleSign server body := rfl
  rw [hdispatch]
  unfold handleSign
  rw [hdecode]
  simp only [hindex]
  exact (Prog.returns_bind _ _ _ _).mpr
    ⟨_, [_], .ok sig, rfl, returns_sign hopen hpem hsigner hsign, .ok (), [], rfl, rfl, rfl⟩

/-- The start with one SSH record in the vault. -/
theorem returns_start {filter : IdentityFilter} {stored : StoredRecord} {name openssh : String}
    {algo : SshAlgo} {blob : Bytes} (hopen : v.crypto.isUnlocked = true) (hid : stored.id = id)
    (htype : stored.credentialType = .Ssh) (hname : recordNameOf v stored = .ok name)
    (hadmits : filter.admits name = true) (hkey : fieldOf v stored .Username = .ok openssh)
    (hparse : parsePublicKey openssh = .ok (algo, blob)) :
    (start v filter).run.Returns
      [⟨VaultCall.db (.listRecords .active), .ok [stored]⟩,
        ⟨VaultCall.db (.getRecord id), .ok (some stored)⟩]
      (.ok
        { vault := v
          identities :=
            [{ recordId := id
               name := name
               algo := algo
               publicBlob := blob }] }) := by
  have hlist : (Fallible.mapError IdentityError.Vault listAllStoredRecords).run.Returns
      [⟨VaultCall.db (.listRecords .active), .ok [stored]⟩] (.ok [stored]) :=
    ⟨.ok [stored], [], rfl, rfl, rfl⟩
  have hread := returns_mapError IdentityError.Vault
    (returns_decryptFieldNoAudit hopen id stored .Username)
  rw [hkey] at hread
  -- its name is admitted, and its public key is read
  have hload : (loadIdentity v filter [] stored).run.Returns
      [⟨VaultCall.db (.getRecord id), .ok (some stored)⟩]
      (.ok [{ recordId := id, name := name, algo := algo, publicBlob := blob }]) := by
    unfold loadIdentity
    rw [if_neg (not_not.mpr htype), hid]
    have hnamed : (Fallible.mapError IdentityError.Vault
        (decryptRecordNameForSync v stored)).run.Returns [] (.ok name) := by
      unfold decryptRecordNameForSync
      rw [hname]
      exact ⟨rfl, rfl⟩
    refine returns_bind_of_ok (t := []) hnamed ?_
    have hpass : ¬ filter.admits name = false := by
      rw [hadmits]
      exact Bool.noConfusion
    rw [if_neg hpass]
    refine returns_bind_of_ok (u := []) hread ?_
    rw [hparse]
    exact ⟨rfl, rfl⟩
  unfold start loadSshIdentities
  refine returns_bind_of_ok (u := []) (returns_bind_of_ok (u := [_]) hlist ?_) ⟨rfl, rfl⟩
  rw [List.foldlM_cons]
  exact returns_bind_of_ok (u := []) hload ⟨rfl, rfl⟩

omit [SshKeys] [Crypto] in
theorem path_undisturbed (server : AgentServer) (r : SignRequest) (algo : SshAlgo)
    {stored : StoredRecord} (hstored : t.storedRecord id = some stored) :
    Path vaultEnv t (undisturbed server r id algo stored) t := by
  have hread : vaultEnv t (.db (.getRecord id)) (.ok (some stored)) t :=
    Or.inl ⟨t.storedRecord id, some stored, rfl, hstored.symm, rfl⟩
  exact ⟨t, hread, t, hread, t, Or.inl ⟨(), (), rfl, rfl, rfl⟩, rfl⟩

end Exchanges

end Requests

/-! ## A key that is moved to the trash -/

namespace Trashed

def server : AgentServer where
  vault := OneRecord.service 1
  identities :=
    [{ recordId := OneRecord.recordId
       name := "deploy"
       algo := .Ed25519
       publicBlob := OneKey.blob }]

def nonce : Nonce :=
  Nonce.filled 1

section

attribute [local instance] OneKey.crypto

/-- The OneKey.payload under the current key. -/
def ciphertext : Bytes :=
  let json := Json.bytes (Json.payload OneKey.payload)
  let dek := deriveDek (List.replicate 32 7) 1
  let masked := Aead.mask dek nonce json
  masked ++ Aead.tagOf dek nonce (recordAad OneRecord.recordId) masked

theorem encryptPayload_payload :
    (OneRecord.service 1).crypto.encryptPayload OneKey.payload (recordAad OneRecord.recordId) nonce =
      .ok ciphertext := by
  unfold CryptoManager.encryptPayload
  have hjson : payloadToJson OneKey.payload = .ok (Json.bytes (Json.payload OneKey.payload)) :=
    if_pos (List.mem_singleton.mpr rfl)
  rw [hjson]
  rfl

theorem decryptPayload_ciphertext :
    (OneRecord.service 1).crypto.decryptPayload ciphertext nonce (recordAad OneRecord.recordId) 1 =
      .ok OneKey.payload :=
  have := OneKey.lawful
  CryptoManager.decryptPayload_encryptPayload encryptPayload_payload

end

/-- The row of the record, in the trash or not. -/
def row (deleted : Bool) : RecordRow where
  credentialType := .Ssh
  encryptedData := ciphertext
  nonce := nonce
  dekVersion := 1
  aad := recordAad OneRecord.recordId
  isFavorite := false
  expiresAt := none
  createdAt := 1767225600
  updatedAt := 1767225600
  updatedBy := "device"
  version := 1
  deleted := deleted
  deletedAt := if deleted then some 1767225600 else none

/-- A vault with the key in it. -/
def vault (deleted : Bool) : Tables :=
  { Tables.fresh Sample.seed with records := AList.insert OneRecord.recordId (row deleted) ∅ }

def stored (deleted : Bool) : StoredRecord :=
  (row deleted).toStoredRecord OneRecord.recordId []

theorem storedRecord_vault (deleted : Bool) (id : Uuid) :
    (vault deleted).storedRecord id =
      if id = OneRecord.recordId then some (stored deleted) else none := by
  unfold Tables.storedRecord vault
  by_cases hid : id = OneRecord.recordId
  · rw [if_pos hid, hid, AList.lookup_insert]
    rfl
  · rw [if_neg hid, AList.lookup_insert_ne hid]
    rfl

/-- No name is left out. -/
def everyName : IdentityFilter where
  only := []
  allow := none

def signRequest : SignRequest where
  keyBlob := OneKey.blob
  data := utf8 "session"
  flags :=
    { rsaSha2256 := false
      rsaSha2512 := false }

@[irreducible] def body : Bytes :=
  writeString OneKey.blob ++ writeString (utf8 "session") ++ [0, 0, 0, 0]

section

attribute [local instance] OneKey.crypto OneKey.ssh

/-- The request is read, its key is offered, and the key signs and has this public half. -/
theorem computed :
    decodeSignRequest body = some signRequest ∧
      server.blobIndex OneKey.blob = some (OneRecord.recordId, .Ed25519) ∧
      SshKeys.ed25519Sign OneKey.seed (utf8 "session") = OneKey.signature ∧
      (SshSigner.Ed25519 OneKey.seed OneKey.openssh).publicBlob = OneKey.blob := by
  decide +kernel

theorem decode_body : decodeSignRequest body = some signRequest :=
  computed.1

theorem blobIndex_blob :
    server.blobIndex OneKey.blob = some (OneRecord.recordId, .Ed25519) :=
  computed.2.1

theorem payloadOf_stored (deleted : Bool) :
    payloadOf server.vault (stored deleted) = .ok OneKey.payload :=
  decryptPayload_ciphertext

theorem fieldOf_stored (deleted : Bool) (field : FieldSelector) :
    fieldOf server.vault (stored deleted) field =
      extractField .Ssh OneKey.payload field := by
  rw [fieldOf_unlocked _ rfl, payloadOf_stored]
  rfl

theorem recordNameOf_stored (deleted : Bool) :
    recordNameOf server.vault (stored deleted) = .ok "deploy" :=
  have := OneKey.lawful
  (CryptoManager.shown_of_decryptPayload (payloadOf_stored deleted)).1

theorem parsePublicKey_openssh :
    parsePublicKey OneKey.openssh = .ok (.Ed25519, OneKey.blob) := by
  have hparse : SshKeys.publicKeyFromOpenssh OneKey.openssh =
      .ok { algorithm := .Ed25519, toBytes := .ok OneKey.blob } := by
    simp only [SshKeys.publicKeyFromOpenssh, List.find?_cons_of_pos, beq_self_eq_true]
  unfold parsePublicKey
  rw [hparse]
  rfl

theorem signer_pem :
    signerFromOpenssh .Ed25519 OneKey.pem none =
      .ok (.Ed25519 OneKey.seed OneKey.openssh) := by
  have hparse : SshKeys.privateKeyFromOpenssh OneKey.pem =
      .ok { pem := OneKey.pem
            openssh := OneKey.openssh
            seed := OneKey.seed
            blob := OneKey.blob
            signatures := [(utf8 "session", OneKey.signature)] } := by
    simp only [SshKeys.privateKeyFromOpenssh, List.find?_cons_of_pos, beq_self_eq_true]
  unfold signerFromOpenssh ed25519FromOpenssh openPrivateKey
  rw [hparse]
  rfl

theorem signed_session :
    (SshSigner.Ed25519 OneKey.seed OneKey.openssh).sign signRequest.data signRequest.flags =
      .ok (wireSignature "ssh-ed25519" OneKey.signature) := by
  have hsign : SshKeys.ed25519Sign OneKey.seed (utf8 "session") = OneKey.signature :=
    computed.2.2.1
  unfold SshSigner.sign
  have hdata : signRequest.data = utf8 "session" := rfl
  rw [hdata]
  simp only [hsign]

/-- The request against the vault. -/
def exchange (deleted : Bool) : Exchange where
  before := vault deleted
  request := SSH_AGENTC_SIGN_REQUEST :: body
  trace := undisturbed server signRequest OneRecord.recordId .Ed25519 (stored deleted)
  reply := signResponse (wireSignature "ssh-ed25519" OneKey.signature)

theorem serving_cons (deleted : Bool) {log : List Exchange} {t u : Tables}
    (hrest : Serving server t log u) :
    Serving server (vault deleted) (exchange deleted :: log) u := by
  have hpem : fieldOf server.vault (stored deleted) .Password = .ok OneKey.pem :=
    fieldOf_stored deleted .Password
  have hpassphrase : passphraseOf (fieldOf server.vault (stored deleted) .Passphrase) =
      none := by
    rw [fieldOf_stored]
    rfl
  have hsigner : signerFromOpenssh .Ed25519 OneKey.pem
      (passphraseOf (fieldOf server.vault (stored deleted) .Passphrase)) =
        .ok (.Ed25519 OneKey.seed OneKey.openssh) := by
    rw [hpassphrase]
    exact signer_pem
  have hopen : server.vault.crypto.isUnlocked = true := by
    decide
  have hindex : server.blobIndex signRequest.keyBlob = some (OneRecord.recordId, .Ed25519) :=
    blobIndex_blob
  have hret := returns_dispatch decode_body hindex hopen hpem hsigner signed_session
  have hstored : (vault deleted).storedRecord OneRecord.recordId = some (stored deleted) := by
    rw [storedRecord_vault, if_pos rfl]
  have hpath := path_undisturbed server signRequest .Ed25519 hstored
  unfold exchange
  exact Serving.answered hret hpath (Serving.edited (t := vault deleted) hrest)

theorem storedRecord_some {deleted : Bool} {id : Uuid} {record : StoredRecord}
    (h : (vault deleted).storedRecord id = some record) : record = stored deleted := by
  rw [storedRecord_vault] at h
  split at h
  · exact (Option.some.inj h).symm
  · cases h

theorem advertised_live :
    Advertised server.vault everyName (vault false) OneRecord.recordId OneKey.blob := by
  have hstored : (vault false).storedRecord OneRecord.recordId = some (stored false) := by
    rw [storedRecord_vault, if_pos rfl]
  exact ⟨⟨stored false, OneKey.openssh, .Ed25519, hstored, fieldOf_stored false .Username,
    parsePublicKey_openssh⟩, stored false, "deploy", hstored, rfl, rfl,
    recordNameOf_stored false, rfl⟩

/-- The private key of the record belongs to the offered key. -/
theorem paired_live {half : Bytes}
    (h : HoldsKey server.vault (stored false) .Ed25519 half) : half = OneKey.blob := by
  rcases h with ⟨pem, passphrase, key, hpem, hpassphrase, hopened, hhalf⟩
  have hpassword : fieldOf server.vault (stored false) .Password = .ok OneKey.pem :=
    fieldOf_stored false .Password
  have hnone : passphrase = none := by
    rcases hpassphrase with hnone | hfield
    · exact hnone
    · rw [hfield, fieldOf_stored]
      rfl
  rw [← Except.ok.inj (hpassword.symm.trans hpem), hnone] at hopened
  -- the signer is built from the same key
  rcases publicHalf_signerFromOpenssh signer_pem with ⟨key', hopened', hhalf'⟩
  have hsame : key' = key := Except.ok.inj (hopened'.symm.trans hopened)
  rw [hsame] at hhalf'
  have hblob : (SshSigner.Ed25519 OneKey.seed OneKey.openssh).publicBlob = OneKey.blob :=
    computed.2.2.2
  rw [← hblob]
  exact hhalf.unique hhalf'

/-- Before the request the vault is as it was at the start. -/
theorem kept_live : (exchange false).Kept server everyName := by
  refine kept_of_advertised ?_ ?_
  · intro i hi
    rw [List.mem_singleton.mp hi]
    exact advertised_live
  · intro i hi record half hstored hholds
    rw [List.mem_singleton.mp hi] at hstored hholds ⊢
    rw [storedRecord_some hstored] at hholds
    exact paired_live hholds

/-- While the vault is as it was, the agent is faithful. -/
theorem faithful_live : (exchange false).Faithful server everyName := by
  have hkept : ∀ e ∈ [exchange false], e.Kept server everyName := by
    intro e he
    rw [List.mem_singleton.mp he]
    exact kept_live
  have hserving := serving_cons false (.stop (vault false))
  exact serving_faithful hserving hkept (exchange false) (List.mem_singleton.mpr rfl)

/-- What the agent asks the database at its start. -/
def loading : List (Event VaultI) :=
  [⟨VaultCall.db (.listRecords .active), .ok [stored false]⟩,
    ⟨VaultCall.db (.getRecord OneRecord.recordId), .ok (some (stored false))⟩]

theorem returns_start_server :
    (start (OneRecord.service 1) everyName).run.Returns loading (.ok server) :=
  returns_start rfl rfl rfl (recordNameOf_stored false) rfl (fieldOf_stored false .Username)
    parsePublicKey_openssh

/-- The key is moved to the trash after the agent has loaded it; the agent still signs. -/
theorem unfaithful_trashed :
    (start (OneRecord.service 1) everyName).run.Returns loading (.ok server) ∧
    Path vaultEnv (vault false) loading (vault false) ∧
    Serving server (vault false) [exchange false, exchange true] (vault true) ∧
      ¬ ∀ e ∈ [exchange false, exchange true], e.Faithful server everyName := by
  have hlisted : vaultEnv (vault false) (.db (.listRecords .active))
      (.ok [stored false]) (vault false) :=
    Or.inl ⟨_, _, rfl, List.Perm.refl _, rfl⟩
  have hread : vaultEnv (vault false) (.db (.getRecord OneRecord.recordId))
      (.ok (some (stored false))) (vault false) :=
    Or.inl ⟨_, _, rfl, (storedRecord_vault false OneRecord.recordId).symm, rfl⟩
  refine ⟨returns_start_server, ⟨_, hlisted, _, hread, rfl⟩,
    serving_cons false (serving_cons true (.stop _)), ?_⟩
  intro h
  have hfaithful := h (exchange true) (by simp)
  rcases hfaithful.signed (head_signResponse _) with ⟨r, id, signer, sig, -, -, -, hlive, -⟩
  rcases hlive with ⟨id', -, stored, name, hstored, hdeleted, -⟩
  rw [storedRecord_some hstored] at hdeleted
  cases hdeleted

end

end Trashed

end AgentServer

end OakKeyring
