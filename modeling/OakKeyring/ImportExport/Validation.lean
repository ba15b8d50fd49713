import OakKeyring.Crypto.Manager
import OakKeyring.ImportExport.Parsers
import Mathlib.Algebra.Group.Nat.Defs

/-!
# Rules for imported items

Every format has its rules. An item is classified by its first result that is not a pass; no rule
asks for a review.
-/

namespace OakKeyring

inductive TargetField
  | Name
  | Username
  | Password
  | AppId
  | SecretKey
  | PublicKey
  | PrivateKey
  | Passphrase
  | Url
  | Notes
  | Tags
  | ExpiresAt
  | CredentialType
deriving DecidableEq, Repr

/-- `field_key`. -/
def TargetField.key : TargetField → String
  | Name => "name"
  | Username => "username"
  | Password => "password"
  | AppId => "app_id"
  | SecretKey => "secret_key"
  | PublicKey => "public_key"
  | PrivateKey => "private_key"
  | Passphrase => "passphrase"
  | Url => "url"
  | Notes => "notes"
  | Tags => "tags"
  | ExpiresAt => "expires_at"
  | CredentialType => "credential_type"

inductive ValidationRuleType
  | Required
  | MinLength (min : Nat)
  | MaxLength (max : Nat)
  | Pattern (pattern : String)
  | Format
  | Enum (allowed : List String)
deriving DecidableEq, Repr

/-- A rule without a field is one for the whole record. -/
structure ValidationRule where
  ruleType : ValidationRuleType
  field : Option TargetField
  errorMessage : String
deriving DecidableEq, Repr

inductive FieldValidation
  | Pass
  | NeedsReview (field message : String)
  | Fail (field message : String)
deriving DecidableEq, Repr

/-! ## The rules of the formats -/

def requiredRule (field : TargetField) (message : String) : ValidationRule where
  ruleType := .Required
  field := some field
  errorMessage := message

def maxLengthRule (field : TargetField) (max : Nat) (message : String) : ValidationRule where
  ruleType := .MaxLength max
  field := some field
  errorMessage := message

def keepassRules : List ValidationRule :=
  [requiredRule .Name "Title is required",
    requiredRule .Username "UserName is required",
    requiredRule .Password "Password is required",
    maxLengthRule .Name 255 "Title must be at most 255 characters",
    maxLengthRule .Username 255 "UserName must be at most 255 characters",
    maxLengthRule .Url 255 "URL must be at most 255 characters"]

def onepassword1puxRules : List ValidationRule :=
  [requiredRule .Name "title is required",
    requiredRule .Username "login.username is required",
    requiredRule .Password "login.password is required",
    maxLengthRule .Name 255 "title must be at most 255 characters"]

def onepasswordOpvaultRules : List ValidationRule :=
  [requiredRule .Name "overview.title is required",
    requiredRule .Username "login.username is required",
    requiredRule .Password "login.password is required"]

def bitwardenRules : List ValidationRule :=
  [requiredRule .Name "name is required",
    requiredRule .Username "login.username is required",
    requiredRule .Password "login.password is required",
    maxLengthRule .Name 255 "name must be at most 255 characters"]

def csvRules : List ValidationRule :=
  [requiredRule .Name "name is required",
    requiredRule .Username "username is required",
    requiredRule .Password "password is required"]

def okbRules : List ValidationRule :=
  [requiredRule .Name "name is required",
    { ruleType := .Enum ["login", "api", "ssh"]
      field := some .CredentialType
      errorMessage := "credential_type must be one of: login, api, ssh" }]

def getRulesForFormat : ImportSource → List ValidationRule
  | .KeePass => keepassRules
  | .OnePassword1pux => onepassword1puxRules
  | .OnePasswordOpvault => onepasswordOpvaultRules
  | .Bitwarden => bitwardenRules
  | .Csv => csvRules
  | .OpenKeyringBackup => okbRules

/-! ## Evaluation -/

/-- The crates `regex` and `chrono`, for texts. -/
class TextPatterns where
  /-- A pattern that cannot be compiled has no matches to ask for. -/
  regex : String → Option (String → Bool)
  /-- `NaiveDateTime::parse_from_str(value, format).is_ok()` -/
  isDateTime : String → String → Bool

section Evaluation

variable [TextPatterns]

/-- Lengths are counted in bytes. -/
def evaluateRule (rule : ValidationRule) (key value : String) : FieldValidation :=
  let passIf (passes : Bool) : FieldValidation :=
    if passes then .Pass else .Fail key rule.errorMessage
  match rule.ruleType with
  | .Required => passIf (value != "")
  | .MinLength min => passIf (decide (min ≤ (utf8 value).length))
  | .MaxLength max => passIf (decide ((utf8 value).length ≤ max))
  | .Pattern pattern =>
      match TextPatterns.regex pattern with
      | some isMatch => passIf (isMatch value)
      | none => .Fail key s!"invalid regex pattern: {pattern}"
  | .Format =>
      passIf (value == "" || (value.contains '@' && value.contains '.') ||
        value.startsWith "http://" || value.startsWith "https://" ||
        TextPatterns.isDateTime "%Y-%m-%dT%H:%M:%S" value ||
        TextPatterns.isDateTime "%Y-%m-%d %H:%M:%S" value)
  | .Enum allowed => passIf (value == "" || allowed.contains value)

/-- One result for each rule. -/
def validateItem (fields : FieldMap) (rules : List ValidationRule) : List FieldValidation :=
  rules.map fun rule =>
    match rule.field with
    | none => .Pass
    | some field => evaluateRule rule field.key (fields.text field.key)

structure ReviewItem where
  name : String
  reason : String
deriving DecidableEq, Repr

structure FailedItem where
  name : String
  reason : String
deriving DecidableEq, Repr

structure ImportValidationSummary where
  totalItems : Nat
  importable : Nat
  needsReview : Nat
  failed : Nat
  reviewItems : List ReviewItem
  failedItems : List FailedItem
  /-- for each item, whether it has no failure -/
  itemPassed : List Bool
deriving DecidableEq, Repr

def FieldValidation.failure : FieldValidation → Option String
  | Fail field message => some s!"{field}: {message}"
  | _ => none

def FieldValidation.warning : FieldValidation → Option String
  | NeedsReview field message => some s!"{field}: {message}"
  | _ => none

/-- The loop body of `validate_items`. -/
def classifyItem (rules : List ValidationRule) (summary : ImportValidationSummary)
    (item : ParsedItem) : ImportValidationSummary :=
  let results := validateItem item.fields rules
  match results.findSome? FieldValidation.failure with
  | some reason =>
      { summary with
        failed := summary.failed + 1
        itemPassed := summary.itemPassed ++ [false]
        failedItems := summary.failedItems ++ [{ name := item.fields.text "name", reason := reason }] }
  | none =>
      match results.findSome? FieldValidation.warning with
      | some reason =>
          { summary with
            needsReview := summary.needsReview + 1
            itemPassed := summary.itemPassed ++ [true]
            reviewItems :=
              summary.reviewItems ++ [{ name := item.fields.text "name", reason := reason }] }
      | none =>
          { summary with
            importable := summary.importable + 1
            itemPassed := summary.itemPassed ++ [true] }

def validateItems (items : List ParsedItem) (rules : List ValidationRule) :
    ImportValidationSummary :=
  items.foldl (classifyItem rules)
    { totalItems := items.length
      importable := 0
      needsReview := 0
      failed := 0
      reviewItems := []
      failedItems := []
      itemPassed := [] }

/-! ## What the rules say -/

/-- No rule fails. -/
def passes (rules : List ValidationRule) (item : ParsedItem) : Bool :=
  ((validateItem item.fields rules).findSome? FieldValidation.failure).isNone

theorem warning_evaluateRule (rule : ValidationRule) (key value : String) :
    (evaluateRule rule key value).warning = none := by
  unfold evaluateRule
  cases rule.ruleType with
  | Required => dsimp only; split <;> rfl
  | MinLength min => dsimp only; split <;> rfl
  | MaxLength max => dsimp only; split <;> rfl
  | Pattern pattern =>
      dsimp only
      cases TextPatterns.regex pattern with
      | none => rfl
      | some isMatch => dsimp only; split <;> rfl
  | Format => dsimp only; split <;> rfl
  | Enum allowed => dsimp only; split <;> rfl

/-- No rule asks for a review. -/
theorem warning_validateItem (fields : FieldMap) (rules : List ValidationRule) :
    (validateItem fields rules).findSome? FieldValidation.warning = none := by
  rw [List.findSome?_eq_none_iff]
  intro result hresult
  rcases List.mem_map.mp hresult with ⟨rule, -, hrule⟩
  rw [← hrule]
  cases rule.field with
  | none => rfl
  | some field => exact warning_evaluateRule rule field.key _

/-- The summary of a batch: what passes is importable, the rest fails, nothing is reviewed. -/
theorem validateItems_eq (items : List ParsedItem) (rules : List ValidationRule) :
    (validateItems items rules).itemPassed = items.map (passes rules) ∧
      (validateItems items rules).reviewItems = [] := by
  -- the summary so far only counts the items before
  have hgen : ∀ (rest : List ParsedItem) (summary : ImportValidationSummary),
      summary.reviewItems = [] →
      (rest.foldl (classifyItem rules) summary).itemPassed =
          summary.itemPassed ++ rest.map (passes rules) ∧
        (rest.foldl (classifyItem rules) summary).reviewItems = [] := by
    intro rest
    induction rest with
    | nil =>
        intro summary hnone
        refine ⟨?_, hnone⟩
        simp
    | cons item rest ih =>
        intro summary hnone
        have hstep : (classifyItem rules summary item).itemPassed =
              summary.itemPassed ++ [passes rules item] ∧
            (classifyItem rules summary item).reviewItems = [] := by
          unfold classifyItem passes
          dsimp only
          cases (validateItem item.fields rules).findSome? FieldValidation.failure with
          | some reason => exact ⟨rfl, hnone⟩
          | none =>
              rw [warning_validateItem]
              exact ⟨rfl, hnone⟩
        rcases ih (classifyItem rules summary item) hstep.2 with ⟨hpassed, hreview⟩
        refine ⟨?_, hreview⟩
        calc ((item :: rest).foldl (classifyItem rules) summary).itemPassed
            = (classifyItem rules summary item).itemPassed ++ rest.map (passes rules) := hpassed
          _ = (summary.itemPassed ++ [passes rules item]) ++ rest.map (passes rules) := by
              rw [hstep.1]
          _ = summary.itemPassed ++ (item :: rest).map (passes rules) := by simp
  exact hgen items _ rfl

end Evaluation

end OakKeyring
