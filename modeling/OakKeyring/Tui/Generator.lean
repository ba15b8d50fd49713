import OakKeyring.Types.Credential

/-!
# The password generator panel

The panel that the form of a login opens. What the generator draws is an answer of the
surroundings; the panel keeps it until it is taken.
-/

namespace OakKeyring

inductive GenerationStyle
  | Random
  | Memorable
  | Pin
deriving DecidableEq, Repr

structure RandomConfig where
  length : Nat
  uppercase : Bool
  lowercase : Bool
  digits : Bool
  symbols : Bool
deriving DecidableEq, Repr

structure MemorableConfig where
  wordCount : Nat
  capitalize : Bool
  separator : String
deriving DecidableEq, Repr

structure PinConfig where
  length : Nat
deriving DecidableEq, Repr

structure PasswordDefaultsConfig where
  style : GenerationStyle
  length : Nat
  includeLowercase : Bool
  includeDigits : Bool
  includeUppercase : Bool
  includeSpecial : Bool
  memorableWordCount : Nat
  memorableCapitalize : Bool
  memorableSeparator : String
  pinLength : Nat
deriving DecidableEq, Repr

/-- What a password is drawn for. -/
inductive PasswordRequest
  | randomPasswordWithCharTypes (config : RandomConfig)
  | memorablePasswordWithOptions (config : MemorableConfig)
  | pin (length : Nat)
deriving DecidableEq, Repr

/-- The answers of the random generator, where it does not fail. -/
abbrev Draws := PasswordRequest → Option String

inductive GeneratorFocus
  | StyleSelector
  | LengthSlider
  | Toggle (index : Nat)
  | SeparatorInput
  | RegenerateButton
  | ActionButton
deriving DecidableEq, Repr

structure GeneratorState where
  style : GenerationStyle
  randomConfig : RandomConfig
  memorableConfig : MemorableConfig
  pinConfig : PinConfig
  preview : String
  focus : GeneratorFocus
deriving DecidableEq, Repr

def clamp (low high n : Nat) : Nat :=
  max low (min high n)

namespace GeneratorState

def request (g : GeneratorState) : PasswordRequest :=
  match g.style with
  | .Random => .randomPasswordWithCharTypes g.randomConfig
  | .Memorable => .memorablePasswordWithOptions g.memorableConfig
  | .Pin => .pin g.pinConfig.length

def regenerate (draws : Draws) (g : GeneratorState) : GeneratorState :=
  { g with preview := (draws g.request).getD "" }

def new (draws : Draws) : GeneratorState :=
  regenerate draws
    { style := .Random
      randomConfig :=
        { length := 16
          uppercase := true
          lowercase := true
          digits := true
          symbols := true }
      memorableConfig :=
        { wordCount := 4
          capitalize := true
          separator := "-" }
      pinConfig := { length := 6 }
      preview := ""
      focus := .StyleSelector }

def fromConfig (draws : Draws) (config : PasswordDefaultsConfig) : GeneratorState :=
  regenerate draws
    { style := config.style
      randomConfig :=
        { length := clamp 8 36 config.length
          uppercase := config.includeUppercase
          lowercase := config.includeLowercase
          digits := config.includeDigits
          symbols := config.includeSpecial }
      memorableConfig :=
        { wordCount := clamp 3 12 config.memorableWordCount
          capitalize := config.memorableCapitalize
          separator := if config.memorableSeparator = "" then "-" else config.memorableSeparator }
      pinConfig := { length := clamp 4 16 config.pinLength }
      preview := ""
      focus := .StyleSelector }

def lengthRange (g : GeneratorState) : Nat × Nat :=
  match g.style with
  | .Random => (8, 36)
  | .Memorable => (3, 12)
  | .Pin => (4, 16)

/-- The length of the current style is changed, and a password of it drawn. -/
def resize (draws : Draws) (f : Nat → Nat) (g : GeneratorState) : GeneratorState :=
  regenerate draws
    (match g.style with
    | .Random => { g with randomConfig.length := f g.randomConfig.length }
    | .Memorable => { g with memorableConfig.wordCount := f g.memorableConfig.wordCount }
    | .Pin => { g with pinConfig.length := f g.pinConfig.length })

def incrementLength (draws : Draws) (g : GeneratorState) : GeneratorState :=
  g.resize draws fun n => min (n + 1) g.lengthRange.2

def decrementLength (draws : Draws) (g : GeneratorState) : GeneratorState :=
  g.resize draws fun n => max (n - 1) g.lengthRange.1

/-- The last character type that is enabled stays enabled. -/
def toggleCharType (draws : Draws) (index : Nat) (g : GeneratorState) : GeneratorState :=
  if g.style ≠ .Random then g
  else
    let c := g.randomConfig
    let enabledCount := ([c.uppercase, c.lowercase, c.digits, c.symbols].filter id).length
    let config :=
      match index with
      | 0 => if c.uppercase ∧ enabledCount = 1 then c else { c with uppercase := !c.uppercase }
      | 1 => if c.lowercase ∧ enabledCount = 1 then c else { c with lowercase := !c.lowercase }
      | 2 => if c.digits ∧ enabledCount = 1 then c else { c with digits := !c.digits }
      | 3 => if c.symbols ∧ enabledCount = 1 then c else { c with symbols := !c.symbols }
      | _ => c
    regenerate draws { g with randomConfig := config }

def setSeparator (draws : Draws) (separator : String) (g : GeneratorState) : GeneratorState :=
  regenerate draws { g with memorableConfig.separator := separator }

def toggleCapitalize (draws : Draws) (g : GeneratorState) : GeneratorState :=
  regenerate draws { g with memorableConfig.capitalize := !g.memorableConfig.capitalize }

def focusOrder (g : GeneratorState) : List GeneratorFocus :=
  match g.style with
  | .Random =>
      [.StyleSelector, .LengthSlider, .Toggle 0, .Toggle 1, .Toggle 2, .Toggle 3,
        .RegenerateButton, .ActionButton]
  | .Memorable =>
      [.StyleSelector, .LengthSlider, .Toggle 0, .SeparatorInput, .RegenerateButton, .ActionButton]
  | .Pin => [.StyleSelector, .LengthSlider, .RegenerateButton, .ActionButton]

def optionFocusOrder (g : GeneratorState) : List GeneratorFocus :=
  match g.style with
  | .Random => [.Toggle 0, .Toggle 1, .Toggle 2, .Toggle 3]
  | .Memorable => [.Toggle 0, .SeparatorInput]
  | .Pin => []

/-- The focus moves around a list, if it is on it. -/
def rotateFocus (order : List GeneratorFocus) (step : Nat → Nat) (g : GeneratorState) :
    GeneratorState :=
  match order.findIdx? fun focus => focus = g.focus with
  | some index =>
      match order[step index % order.length]? with
      | some focus => { g with focus := focus }
      | none => g
  | none => g

def focusNextToggle (g : GeneratorState) : GeneratorState :=
  g.rotateFocus g.optionFocusOrder (· + 1)

def focusPrevToggle (g : GeneratorState) : GeneratorState :=
  g.rotateFocus g.optionFocusOrder (· + g.optionFocusOrder.length - 1)

def firstOptionFocus (g : GeneratorState) : GeneratorFocus :=
  match g.style with
  | .Random | .Memorable => .Toggle 0
  | .Pin => .RegenerateButton

def lastOptionFocus (g : GeneratorState) : GeneratorFocus :=
  match g.style with
  | .Random => .Toggle 3
  | .Memorable => .SeparatorInput
  | .Pin => .LengthSlider

def focusSectionDown (g : GeneratorState) : GeneratorState :=
  { g with
    focus :=
      match g.focus with
      | .StyleSelector => .LengthSlider
      | .LengthSlider => g.firstOptionFocus
      | .Toggle _ | .SeparatorInput => .RegenerateButton
      | .RegenerateButton | .ActionButton => .StyleSelector }

def focusSectionUp (g : GeneratorState) : GeneratorState :=
  { g with
    focus :=
      match g.focus with
      | .StyleSelector => .ActionButton
      | .LengthSlider => .StyleSelector
      | .Toggle _ | .SeparatorInput => .LengthSlider
      | .RegenerateButton | .ActionButton => g.lastOptionFocus }

def clearPreview (g : GeneratorState) : GeneratorState :=
  { g with preview := "" }

end GeneratorState

structure EmbeddedGeneratorState where
  expanded : Bool
  generator : GeneratorState
deriving DecidableEq, Repr

namespace EmbeddedGeneratorState

def new (draws : Draws) : EmbeddedGeneratorState where
  expanded := false
  generator := .new draws

def expandFromConfig (draws : Draws) (config : PasswordDefaultsConfig) :
    EmbeddedGeneratorState where
  expanded := true
  generator := { GeneratorState.fromConfig draws config with focus := .LengthSlider }

def collapse (e : EmbeddedGeneratorState) : EmbeddedGeneratorState where
  expanded := false
  generator := e.generator.clearPreview

/-- The password is taken out of the preview. -/
def usePassword (e : EmbeddedGeneratorState) : String × EmbeddedGeneratorState :=
  (e.generator.preview,
    { expanded := false
      generator := e.generator.clearPreview })

end EmbeddedGeneratorState

end OakKeyring
