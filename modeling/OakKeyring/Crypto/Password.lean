import OakKeyring.Crypto.Strength
import OakKeyring.Errors
import OakKeyring.Lib.Quota
import OakKeyring.Lib.Stateful
import OakKeyring.Types.Record

/-!
# The random password generators

Every generator draws bytes of four alphabets from the random source of the system. The command
translates its flags into one of two generators, of which the first guarantees no class and the
second fills up with every class.
-/

namespace OakKeyring

open Effect

/-- The random source of the crate `rand_core`, and the shuffle of `rand` that draws from it. -/
class OsRng (S : Type) where
  nextU32 : S → UInt32 × S
  shuffle : Bytes → S → Bytes × S
  /-- A shuffle only reorders. -/
  shuffle_perm : ∀ bs s, (shuffle bs s).1.Perm bs

/-- The generators stop with a text. -/
abbrev Drawing (S : Type) :=
  Stateful String S

/-- A choice of bytes that is not empty, and of ASCII characters only. -/
structure Alphabet where
  bytes : Bytes
  bytes_ne : bytes ≠ []
  ascii : ∀ b ∈ bytes, b.toNat < 128

namespace Alphabet

def extend (as : Option Alphabet) (b : Alphabet) : Alphabet where
  bytes := (as.map bytes).getD [] ++ b.bytes
  bytes_ne := by simp [b.bytes_ne]
  ascii c h := by
    rcases List.mem_append.1 h with h | h
    · cases as with
      | none => cases h
      | some a => exact a.ascii c h
    · exact b.ascii c h

/-- The byte that a draw falls on. -/
def pick (choices : Alphabet) (draw : UInt32) : UInt8 :=
  choices.bytes.get ⟨draw.toNat % choices.bytes.length,
    Nat.mod_lt _ (List.length_pos_of_ne_nil choices.bytes_ne)⟩

theorem pick_mem (choices : Alphabet) (draw : UInt32) : choices.pick draw ∈ choices.bytes :=
  List.get_mem ..

end Alphabet

/-- A byte string literal. -/
def byteString (text : String) : Bytes :=
  text.toList.map Char.toUInt8

theorem ascii_of_all {bytes : Bytes} (h : (bytes.all fun b => decide (b.toNat < 128)) = true) :
    ∀ b ∈ bytes, b.toNat < 128 := by
  simpa using h

def LOWERCASE : Alphabet where
  bytes := byteString "abcdefghijkmnpqrstuvwxyz"
  bytes_ne := by decide
  ascii := ascii_of_all (by decide)

def UPPERCASE : Alphabet where
  bytes := byteString "ABCDEFGHJKLMNPQRSTUVWXYZ"
  bytes_ne := by decide
  ascii := ascii_of_all (by decide)

def DIGITS : Alphabet where
  bytes := byteString "23456789"
  bytes_ne := by decide
  ascii := ascii_of_all (by decide)

def SPECIAL : Alphabet where
  bytes := byteString "!#$*+-=?@^_~"
  bytes_ne := by decide
  ascii := ascii_of_all (by decide)

/-- All four. -/
def charset : Alphabet :=
  .extend (some (.extend (some (.extend (some LOWERCASE) UPPERCASE)) DIGITS)) SPECIAL

section Source

variable {S : Type} [OsRng S]

def nextU32 : Drawing S UInt32 :=
  Stateful.command fun s => (.ok (OsRng.nextU32 s).1, (OsRng.nextU32 s).2)

def shuffle (password : Bytes) : Drawing S Bytes :=
  Stateful.command fun s => (.ok (OsRng.shuffle password s).1, (OsRng.shuffle password s).2)

def randomFromSlice (choices : Alphabet) : Drawing S UInt8 := do
  let draw ← nextU32
  return choices.pick draw

/-- The loop that pushes so many random bytes. -/
def pushRandom (choices : Alphabet) : Nat → Bytes → Drawing S Bytes
  | 0, password => return password
  | n + 1, password => do
      let b ← randomFromSlice choices
      pushRandom choices n (password ++ [b])

/-- The same loop over a text. -/
def pushRandomChars (choices : Alphabet) : Nat → String → Drawing S String
  | 0, password => return password
  | n + 1, password => do
      let b ← randomFromSlice choices
      pushRandomChars choices n (password.push (Char.ofUInt8 b))

def fromUtf8 (bs : Bytes) : Except String String :=
  match String.fromUTF8? bs.toByteArray with
  | some text => .ok text
  | none => .error "invalid utf-8 sequence"

def lengthMessage : String := "Password length must be between 4 and 128"

def requirementsMessage : String := "Policy requirements exceed password length"

def generateRandomPassword (length : Nat) : Drawing S String := do
  unless 4 ≤ length ∧ length ≤ 128 do
    throw lengthMessage
  pushRandomChars charset length ""

def generateRandomPasswordWithPolicy (length : Nat)
    (minDigits minSpecial minLowercase minUppercase : UInt8) : Drawing S String := do
  unless 4 ≤ length ∧ length ≤ 128 do
    throw lengthMessage
  let required :=
    minDigits.toNat + minSpecial.toNat + minLowercase.toNat + minUppercase.toNat
  unless required ≤ length do
    throw requirementsMessage
  let password ← pushRandom LOWERCASE minLowercase.toNat []
  let password ← pushRandom UPPERCASE minUppercase.toNat password
  let password ← pushRandom DIGITS minDigits.toNat password
  let password ← pushRandom SPECIAL minSpecial.toNat password
  let password ← pushRandom charset (length - required) password
  let password ← shuffle password
  MonadExcept.ofExcept (fromUtf8 password)

/-- One class of the generator by classes: a byte of it is required when it is enabled. -/
def requireType (enabled : Bool) (type : Alphabet) (acc : Bytes × Option Alphabet) :
    Drawing S (Bytes × Option Alphabet) :=
  if enabled then do
    let b ← randomFromSlice type
    return (acc.1 ++ [b], some (.extend acc.2 type))
  else
    return acc

def generateRandomPasswordWithCharTypes (length : Nat)
    (uppercase lowercase digits symbols : Bool) : Drawing S String := do
  unless 4 ≤ length ∧ length ≤ 128 do
    throw lengthMessage
  let acc ← requireType lowercase LOWERCASE ([], none)
  let acc ← requireType uppercase UPPERCASE acc
  let acc ← requireType digits DIGITS acc
  let (required, choices) ← requireType symbols SPECIAL acc
  match choices with
  | none => throw "At least one character type must be enabled"
  | some choices => do
      unless required.length ≤ length do
        throw requirementsMessage
      let password ← pushRandom choices (length - required.length) required
      let password ← shuffle password
      MonadExcept.ofExcept (fromUtf8 password)

end Source

/-! ## The command -/

inductive GenerateResult
  | PasswordGenerated (password : String) (strength : PasswordStrength)
  | Error (code : ErrorCode) (context : ErrorContext) (messageKey fallback : String)
deriving DecidableEq, Repr

section Command

variable {S : Type} [OsRng S]

/-- The generator that the flags of the command select. -/
def selectGenerator (length : Nat) (includeDigits includeUppercase includeSpecial : Bool) :
    Drawing S String :=
  if includeDigits && includeUppercase && includeSpecial then
    generateRandomPassword length
  else
    let minDigits := if includeDigits then 1 else 0
    let minSpecial := if includeSpecial then 1 else 0
    let minLowercase := 1
    let minUppercase := if includeUppercase then 1 else 0
    generateRandomPasswordWithPolicy length minDigits minSpecial minLowercase minUppercase

def handleGeneratePassword (length : Nat)
    (includeDigits includeUppercase includeSpecial : Bool) (s : S) : GenerateResult × S :=
  match Stateful.exec (selectGenerator length includeDigits includeUppercase includeSpecial) s with
  | (.ok password, s) => (.PasswordGenerated password (evaluateStrength password), s)
  | (.error e, s) =>
      (.Error .CryptoEncryptionFailed {} "error.password_generation"
        s!"Failed to generate password: {e}", s)

end Command

end OakKeyring
