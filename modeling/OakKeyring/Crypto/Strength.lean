import Mathlib.Data.List.Basic

/-! # The strength of a password -/

namespace OakKeyring

def SPECIAL_CHARS : List Char :=
  "!#$*+-=?@^_~".toList

inductive StrengthLevel
  | VeryWeak
  | Weak
  | Fair
  | Strong
  | VeryStrong
deriving DecidableEq, Repr

structure PasswordStrength where
  level : StrengthLevel
  charTypes : Nat
  barFill : Nat
deriving DecidableEq, Repr

def evaluateStrength (password : String) : PasswordStrength :=
  let len := password.utf8ByteSize
  let chars := password.toList
  let hasLower := chars.any fun c => 'a' ≤ c ∧ c ≤ 'z'
  let hasUpper := chars.any fun c => 'A' ≤ c ∧ c ≤ 'Z'
  let hasDigit := chars.any fun c => '0' ≤ c ∧ c ≤ '9'
  let hasSpecial := chars.any fun c => c ∈ SPECIAL_CHARS
  let charTypes := ([hasLower, hasUpper, hasDigit, hasSpecial].filter id).length
  let graded : StrengthLevel × Nat :=
    if len < 8 ∨ charTypes ≤ 1 then (.VeryWeak, 3)
    else if len ≤ 11 ∧ charTypes ≤ 2 then (.Weak, 6)
    else if len ≤ 15 ∧ charTypes = 3 then (.Fair, 9)
    else if charTypes = 4 ∧ 20 ≤ len then (.VeryStrong, 16)
    else if charTypes = 4 then (.Strong, 12)
    else (.Weak, 6)
  { level := graded.1
    charTypes := charTypes
    barFill := graded.2 }

end OakKeyring
