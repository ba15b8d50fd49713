import OakKeyring.Lib.FormData
import OakKeyring.Samples.Sha256
import OakKeyring.Types.Record

/-!
# What the provider is asked

The browser is sent to an address with the parameters of the flow, and the code that comes back is
exchanged with a form. Names, secrets and codes are encoded on the way.
-/

namespace OakKeyring

structure OAuth2Provider where
  clientId : String
  clientSecret : String
  authUrl : String
  scopes : List String
  redirectUri : String

namespace OAuth2Engine

/-- `b'A'..=b'Z' | b'a'..=b'z' | b'0'..=b'9' | b'-' | b'_' | b'.' | b'~'`. -/
def isUnreserved (b : UInt8) : Bool :=
  (65 ≤ b.toNat && b.toNat ≤ 90) || (97 ≤ b.toNat && b.toNat ≤ 122) ||
    (48 ≤ b.toNat && b.toNat ≤ 57) || b == 45 || b == 95 || b == 46 || b == 126

def urlencodingEncode (s : String) : String :=
  String.ofList (FormData.encode isUnreserved (FormData.bytes s.toList))

def buildAuthUrl (provider : OAuth2Provider) (challenge : String) : String :=
  provider.authUrl ++ "?response_type=code&client_id=" ++ urlencodingEncode provider.clientId ++
    "&redirect_uri=" ++ urlencodingEncode provider.redirectUri ++
    "&scope=" ++ urlencodingEncode (" ".intercalate provider.scopes) ++
    "&state=oak-state&access_type=offline&prompt=consent&code_challenge=" ++ challenge ++
    "&code_challenge_method=S256"

/-- The body of the request of `exchange_code_for_token`. -/
def exchangeBody (provider : OAuth2Provider) (code verifier : String) : String :=
  "grant_type=authorization_code&code=" ++ urlencodingEncode code ++
    "&redirect_uri=" ++ urlencodingEncode provider.redirectUri ++
    "&client_id=" ++ urlencodingEncode provider.clientId ++
    "&client_secret=" ++ urlencodingEncode provider.clientSecret ++
    "&code_verifier=" ++ urlencodingEncode verifier

/-! ## The challenge -/

/-- `BASE64_URL_SAFE_NO_PAD` of the crate `base64`. -/
class Base64Url where
  base64UrlSafeNoPad : Bytes → String

export Base64Url (base64UrlSafeNoPad)

/-- The URL-safe alphabet without padding: letters, digits, the hyphen and the underscore. -/
class LawfulBase64Url [Base64Url] : Prop where
  alphabet : ∀ (bytes : Bytes), ∀ c ∈ (base64UrlSafeNoPad bytes).toList,
    c.isAlphanum = true ∨ c = '-' ∨ c = '_'

/-- The verifier of 32 random bytes, and its challenge. -/
def generatePkce [Base64Url] (sha256 : Bytes → Bytes) (verifierBytes : Bytes) : String × String :=
  let verifier := base64UrlSafeNoPad verifierBytes
  (verifier, base64UrlSafeNoPad (sha256 (FormData.bytes verifier.toList)))

/-! ## Encoding -/

variable {c : Char}

theorem unambiguous_isUnreserved : FormData.Unambiguous isUnreserved := by
  intro b hb
  have hrange : (65 ≤ b.toNat ∧ b.toNat ≤ 90) ∨ (97 ≤ b.toNat ∧ b.toNat ≤ 122) ∨
      (48 ≤ b.toNat ∧ b.toNat ≤ 57) ∨ b.toNat = 45 ∨ b.toNat = 95 ∨ b.toNat = 46 ∨
      b.toNat = 126 := by
    simp only [isUnreserved, Bool.or_eq_true, Bool.and_eq_true, decide_eq_true_eq, beq_iff_eq] at hb
    rcases hb with (((((hb | hb) | hb) | hb) | hb) | hb) | hb
    · exact .inl hb
    · exact .inr (.inl hb)
    · exact .inr (.inr (.inl hb))
    all_goals
      rw [hb]
      decide
  constructor
  · omega
  · simp only [List.mem_cons, List.not_mem_nil, or_false, not_or]
    omega

theorem decode_urlencodingEncode (s : String) :
    FormData.decode (urlencodingEncode s).toList = FormData.bytes s.toList := by
  rw [urlencodingEncode, String.toList_ofList]
  exact FormData.decode_encode unambiguous_isUnreserved _

example : urlencodingEncode "a b/\u00E9~" = "a%20b%2F%C3%A9~" := by
  decide

theorem urlencodingEncode_free {s : String} (hc : c ∈ (urlencodingEncode s).toList) :
    c ≠ '&' ∧ c ≠ '=' ∧ c ≠ '#' := by
  rw [urlencodingEncode, String.toList_ofList] at hc
  exact FormData.encode_free unambiguous_isUnreserved hc

/-- Nothing of the alphabet has a meaning in a form or an address. -/
theorem base64UrlSafeNoPad_free [Base64Url] [LawfulBase64Url] (bytes : Bytes)
    (hc : c ∈ (base64UrlSafeNoPad bytes).toList) : c ∉ ['%', '+', '&', '#'] := by
  have hletter : c.isAlphanum = true ∨ c = '-' ∨ c = '_' := LawfulBase64Url.alphabet bytes c hc
  simp only [List.mem_cons, List.not_mem_nil, or_false, not_or]
  refine ⟨?_, ?_, ?_, ?_⟩
  all_goals
    rintro rfl
    revert hletter
    decide

/-! ## Parameters -/

/-- A parameter as it is written, and what it is to say. -/
structure Param where
  name : String
  text : List Char
  value : String

def encoded (name value : String) : Param :=
  ⟨name, (urlencodingEncode value).toList, value⟩

def asIs (name value : String) : Param :=
  ⟨name, value.toList, value⟩

/-- No character of the text has a meaning in a form or an address. -/
def isFree (text : List Char) : Bool :=
  text.all fun c => c != '%' && c != '+' && c != '&' && c != '#' && c != '='

structure Param.Readable (p : Param) : Prop where
  name : isFree p.name.toList = true
  value : FormData.decode p.text = FormData.bytes p.value.toList
  separate : '&' ∉ p.text
  query : '#' ∉ p.text

theorem isFree_iff {text : List Char} : isFree text = true ↔
    ∀ c ∈ text, c ≠ '%' ∧ c ≠ '+' ∧ c ≠ '&' ∧ c ≠ '#' ∧ c ≠ '=' := by
  unfold isFree
  simp only [List.all_eq_true, Bool.and_eq_true, bne_iff_ne, and_assoc, ne_eq]

theorem readable_encoded {name : String} (hname : isFree name.toList = true) (value : String) :
    (encoded name value).Readable := by
  have hfree : ∀ c ∈ (urlencodingEncode value).toList, c ≠ '&' ∧ c ≠ '=' ∧ c ≠ '#' := by
    intro c hc
    exact urlencodingEncode_free hc
  unfold encoded
  constructor
  · exact hname
  · dsimp only
    exact decode_urlencodingEncode value
  · intro hmem
    dsimp only at hmem
    exact (hfree '&' hmem).1 rfl
  · intro hmem
    dsimp only at hmem
    exact (hfree '#' hmem).2.2 rfl

theorem readable_asIs {name value : String} (hname : isFree name.toList = true)
    (hvalue : ∀ c ∈ value.toList, c ∉ ['%', '+', '&', '#']) : (asIs name value).Readable where
  name := hname
  value := by
    apply FormData.decode_eq_bytes
    intro c hc
    have hfree := hvalue c hc
    simp only [List.mem_cons, List.not_mem_nil, or_false, not_or] at hfree
    exact ⟨hfree.1, hfree.2.1⟩
  separate := fun hmem => hvalue _ hmem (by decide)
  query := fun hmem => hvalue _ hmem (by decide)

theorem readable_fixed {name value : String} (hname : isFree name.toList = true)
    (hvalue : isFree value.toList = true) : (asIs name value).Readable := by
  apply readable_asIs hname
  intro c hc
  have hfree := isFree_iff.mp hvalue c hc
  simp only [List.mem_cons, List.not_mem_nil, or_false, not_or]
  exact ⟨hfree.1, hfree.2.1, hfree.2.2.1, hfree.2.2.2.1⟩

/-- What a reader is to find. -/
def sent (params : List (String × String)) : List (Bytes × Bytes) :=
  params.map fun p => (FormData.bytes p.1.toList, FormData.bytes p.2.toList)

def form (params : List Param) : List Char :=
  FormData.written (params.map fun p => (p.name.toList, p.text))

theorem read_form {params : List Param} (hne : params ≠ []) (h : ∀ p ∈ params, p.Readable) :
    FormData.read (form params) = params.map fun p =>
      (FormData.bytes p.name.toList, FormData.bytes p.value.toList) := by
  unfold form
  rw [FormData.read_written (by simpa using hne), List.map_map]
  · apply List.map_congr_left
    intro p hp
    have hname : FormData.decode p.name.toList = FormData.bytes p.name.toList := by
      apply FormData.decode_eq_bytes
      intro c hc
      have hfree := isFree_iff.mp (h p hp).name c hc
      exact ⟨hfree.1, hfree.2.1⟩
    simp only [Function.comp_apply, hname, (h p hp).value]
  · intro pair hpair
    obtain ⟨p, hp, heq⟩ := List.mem_map.mp hpair
    have hfree := isFree_iff.mp (h p hp).name
    rw [← heq]
    exact ⟨fun hmem => (hfree _ hmem).2.2.1 rfl, fun hmem => (hfree _ hmem).2.2.2.2 rfl,
      (h p hp).separate⟩

/-- The fragment of an address begins behind the form. -/
theorem fragment_notMem_form {params : List Param} (h : ∀ p ∈ params, p.Readable) :
    '#' ∉ form params := by
  apply FormData.notMem_written (by decide) (by decide)
  intro pair hpair
  obtain ⟨p, hp, heq⟩ := List.mem_map.mp hpair
  rw [← heq]
  exact ⟨fun hmem => (isFree_iff.mp (h p hp).name _ hmem).2.2.2.1 rfl, (h p hp).query⟩

/-! ## The two requests -/

variable (provider : OAuth2Provider)

def exchangeParams (code verifier : String) : List Param :=
  [asIs "grant_type" "authorization_code", encoded "code" code,
    encoded "redirect_uri" provider.redirectUri, encoded "client_id" provider.clientId,
    encoded "client_secret" provider.clientSecret, encoded "code_verifier" verifier]

def authParams (challenge : String) : List Param :=
  [asIs "response_type" "code", encoded "client_id" provider.clientId,
    encoded "redirect_uri" provider.redirectUri,
    encoded "scope" (" ".intercalate provider.scopes), asIs "state" "oak-state",
    asIs "access_type" "offline", asIs "prompt" "consent", asIs "code_challenge" challenge,
    asIs "code_challenge_method" "S256"]

theorem toList_redirect :
    "&redirect_uri=".toList = '&' :: ("redirect_uri".toList ++ ['=']) := by
  simp

theorem toList_exchangeBody (code verifier : String) :
    (exchangeBody provider code verifier).toList = form (exchangeParams provider code verifier) := by
  have hgrant : "grant_type=authorization_code&code=".toList = "grant_type".toList ++
      '=' :: ("authorization_code".toList ++ '&' :: ("code".toList ++ ['='])) := by simp
  have hid : "&client_id=".toList = '&' :: ("client_id".toList ++ ['=']) := by simp
  have hsecret : "&client_secret=".toList = '&' :: ("client_secret".toList ++ ['=']) := by simp
  have hverifier : "&code_verifier=".toList = '&' :: ("code_verifier".toList ++ ['=']) := by simp
  unfold exchangeBody exchangeParams form asIs encoded
  simp only [String.toList_append, hgrant, toList_redirect, hid, hsecret, hverifier, List.map_cons,
    List.map_nil, FormData.written_cons_cons, FormData.written_singleton, List.append_assoc,
    List.cons_append, List.nil_append]

/-- What stands behind the question mark of the address. -/
def authQuery (challenge : String) : String :=
  "response_type=code&client_id=" ++ urlencodingEncode provider.clientId ++
    "&redirect_uri=" ++ urlencodingEncode provider.redirectUri ++
    "&scope=" ++ urlencodingEncode (" ".intercalate provider.scopes) ++
    "&state=oak-state&access_type=offline&prompt=consent&code_challenge=" ++ challenge ++
    "&code_challenge_method=S256"

theorem buildAuthUrl_eq (challenge : String) :
    buildAuthUrl provider challenge = provider.authUrl ++ "?" ++ authQuery provider challenge := by
  have hmark : "?response_type=code&client_id=" = "?" ++ "response_type=code&client_id=" := by
    decide
  unfold buildAuthUrl authQuery
  rw [hmark]
  simp only [String.append_assoc]

theorem toList_authQuery (challenge : String) :
    (authQuery provider challenge).toList = form (authParams provider challenge) := by
  have htype : "response_type=code&client_id=".toList = "response_type".toList ++
      '=' :: ("code".toList ++ '&' :: ("client_id".toList ++ ['='])) := by simp
  have hscope : "&scope=".toList = '&' :: ("scope".toList ++ ['=']) := by simp
  have hstate : "&state=oak-state&access_type=offline&prompt=consent&code_challenge=".toList =
      '&' :: ("state".toList ++ '=' :: ("oak-state".toList ++
        '&' :: ("access_type".toList ++ '=' :: ("offline".toList ++
          '&' :: ("prompt".toList ++ '=' :: ("consent".toList ++
            '&' :: ("code_challenge".toList ++ ['=']))))))) := by simp
  have hmethod : "&code_challenge_method=S256".toList =
      '&' :: ("code_challenge_method".toList ++ '=' :: "S256".toList) := by simp
  unfold authQuery authParams form asIs encoded
  simp only [String.toList_append, htype, toList_redirect, hscope, hstate, hmethod, List.map_cons,
    List.map_nil, FormData.written_cons_cons, FormData.written_singleton, List.append_assoc,
    List.cons_append, List.nil_append]

theorem readable_exchangeParams (code verifier : String) :
    ∀ p ∈ exchangeParams provider code verifier, p.Readable := by
  simp only [exchangeParams, List.forall_mem_cons, List.not_mem_nil, false_implies, implies_true,
    and_true]
  refine ⟨readable_fixed ?_ ?_, readable_encoded ?_ _, readable_encoded ?_ _, readable_encoded ?_ _,
    readable_encoded ?_ _, readable_encoded ?_ _⟩
  all_goals decide

theorem readable_authParams {challenge : String}
    (hchallenge : ∀ c ∈ challenge.toList, c ∉ ['%', '+', '&', '#']) :
    ∀ p ∈ authParams provider challenge, p.Readable := by
  simp only [authParams, List.forall_mem_cons, List.not_mem_nil, false_implies, implies_true,
    and_true]
  refine ⟨readable_fixed ?_ ?_, readable_encoded ?_ _, readable_encoded ?_ _, readable_encoded ?_ _,
    readable_fixed ?_ ?_, readable_fixed ?_ ?_, readable_fixed ?_ ?_, readable_asIs ?_ hchallenge,
    readable_fixed ?_ ?_⟩
  all_goals decide

end OAuth2Engine

open OAuth2Engine in
/-- Whoever reads the requests of a flow finds the parameters as they were meant, whatever the
provider, the code and the verifier are. -/
theorem requests_read_back [Base64Url] [LawfulBase64Url] (provider : OAuth2Provider)
    (sha256 : Bytes → Bytes) (verifierBytes : Bytes) (code verifier : String) :
    FormData.read (exchangeBody provider code verifier).toList =
        sent [("grant_type", "authorization_code"), ("code", code),
          ("redirect_uri", provider.redirectUri), ("client_id", provider.clientId),
          ("client_secret", provider.clientSecret), ("code_verifier", verifier)] ∧
      ∃ query : String,
        buildAuthUrl provider (generatePkce sha256 verifierBytes).2 =
            provider.authUrl ++ "?" ++ query ∧
          '#' ∉ query.toList ∧
          FormData.read query.toList =
            sent [("response_type", "code"), ("client_id", provider.clientId),
              ("redirect_uri", provider.redirectUri),
              ("scope", " ".intercalate provider.scopes), ("state", "oak-state"),
              ("access_type", "offline"), ("prompt", "consent"),
              ("code_challenge", (generatePkce sha256 verifierBytes).2),
              ("code_challenge_method", "S256")] := by
  have hchallenge : ∀ c ∈ (generatePkce sha256 verifierBytes).2.toList, c ∉ ['%', '+', '&', '#'] := by
    intro c hc
    -- the challenge is the only value that is not encoded
    exact base64UrlSafeNoPad_free _ hc
  have hauth := readable_authParams provider hchallenge
  constructor
  · rw [toList_exchangeBody,
      read_form (by simp [exchangeParams]) (readable_exchangeParams provider code verifier)]
    rfl
  · refine ⟨_, buildAuthUrl_eq provider _, ?_, ?_⟩
    · rw [toList_authQuery]
      exact fragment_notMem_form hauth
    · rw [toList_authQuery, read_form (by simp [authParams]) hauth]
      rfl

/-! ## A flow -/

namespace SampleFlow

open OAuth2Engine

/-- A digit of the URL-safe alphabet of base 64. -/
def digit (n : Nat) : Char :=
  Char.ofNat
    (if n < 26 then 65 + n
    else if n < 52 then 71 + n
    else if n < 62 then n - 4
    else if n = 62 then 45
    else 95)

/-- Three bytes are four digits; a rest is not padded. -/
def digits : Bytes → List Char
  | a :: b :: c :: rest =>
      digit (a.toNat / 4) :: digit (a.toNat % 4 * 16 + b.toNat / 16) ::
        digit (b.toNat % 16 * 4 + c.toNat / 64) :: digit (c.toNat % 64) :: digits rest
  | [a, b] =>
      [digit (a.toNat / 4), digit (a.toNat % 4 * 16 + b.toNat / 16), digit (b.toNat % 16 * 4)]
  | [a] => [digit (a.toNat / 4), digit (a.toNat % 4 * 16)]
  | [] => []

abbrev base64Url : Base64Url where
  base64UrlSafeNoPad bytes := String.ofList (digits bytes)

theorem digit_alphabet {n : Nat} (h : n < 64) :
    (digit n).isAlphanum = true ∨ digit n = '-' ∨ digit n = '_' := by
  have hall : ∀ m : Fin 64, (digit m).isAlphanum = true ∨ digit m = '-' ∨ digit m = '_' := by
    decide
  exact hall ⟨n, h⟩

theorem digits_alphabet {c : Char} (bytes : Bytes) (hc : c ∈ digits bytes) :
    c.isAlphanum = true ∨ c = '-' ∨ c = '_' := by
  have hdigit : ∀ n < 64, c = digit n → c.isAlphanum = true ∨ c = '-' ∨ c = '_' := by
    intro n hn heq
    rw [heq]
    exact digit_alphabet hn
  fun_induction digits bytes with
  | case1 a b d rest ih =>
      -- three bytes give four digits, and what is left of them fewer
      have ha := a.toNat_lt
      have hb := b.toNat_lt
      have hd := d.toNat_lt
      simp only [List.mem_cons] at hc
      rcases hc with hc | hc | hc | hc | hc
      · exact hdigit _ (by omega) hc
      · exact hdigit _ (by omega) hc
      · exact hdigit _ (by omega) hc
      · exact hdigit _ (by omega) hc
      · exact ih hc
  | case2 a b =>
      have ha := a.toNat_lt
      have hb := b.toNat_lt
      simp only [List.mem_cons, List.not_mem_nil, or_false] at hc
      rcases hc with hc | hc | hc
      · exact hdigit _ (by omega) hc
      · exact hdigit _ (by omega) hc
      · exact hdigit _ (by omega) hc
  | case3 a =>
      have ha := a.toNat_lt
      simp only [List.mem_cons, List.not_mem_nil, or_false] at hc
      rcases hc with hc | hc
      · exact hdigit _ (by omega) hc
      · exact hdigit _ (by omega) hc
  | case4 => cases hc

def provider : OAuth2Provider where
  clientId := "oak & keyring"
  clientSecret := "s=cr+t"
  authUrl := "https://accounts.example.com/auth"
  scopes := ["files.read", "files.write"]
  redirectUri := "http://127.0.0.1:8080/callback?from=oak"

def sha256 (bytes : Bytes) : Bytes :=
  (Sha256.hash (bytes.map UInt8.toNat)).flatMap fun w =>
    [UInt8.ofNat (w / 16777216), UInt8.ofNat (w / 65536), UInt8.ofNat (w / 256), UInt8.ofNat w]

section

attribute [local instance] base64Url

theorem lawful : LawfulBase64Url where
  alphabet := by
    intro bytes c hc
    have hlist : (base64UrlSafeNoPad bytes).toList = digits bytes := String.toList_ofList
    rw [hlist] at hc
    exact digits_alphabet bytes hc

def pkce : String × String :=
  generatePkce sha256 (List.replicate 32 7)

/-- A secret with characters of a form, and a code that needs them all encoded. -/
theorem requests_read_back_flow :
    FormData.read (exchangeBody provider "4/0A&b=%é" pkce.1).toList =
        sent [("grant_type", "authorization_code"), ("code", "4/0A&b=%é"),
          ("redirect_uri", "http://127.0.0.1:8080/callback?from=oak"),
          ("client_id", "oak & keyring"), ("client_secret", "s=cr+t"), ("code_verifier", pkce.1)] ∧
      ∃ query : String,
        buildAuthUrl provider pkce.2 = provider.authUrl ++ "?" ++ query ∧
          '#' ∉ query.toList ∧
          FormData.read query.toList =
            sent [("response_type", "code"), ("client_id", "oak & keyring"),
              ("redirect_uri", "http://127.0.0.1:8080/callback?from=oak"),
              ("scope", " ".intercalate provider.scopes), ("state", "oak-state"),
              ("access_type", "offline"), ("prompt", "consent"),
              ("code_challenge", pkce.2), ("code_challenge_method", "S256")] :=
  have := lawful
  requests_read_back provider sha256 (List.replicate 32 7) "4/0A&b=%é" pkce.1

end

end SampleFlow

end OakKeyring
