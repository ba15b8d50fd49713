import OakKeyring.Lib.Replacing
import OakKeyring.Types.Credential

/-!
# Redaction of messages

Errors of providers quote requests, and a request names its secrets as parameters. Before a
message is shown or logged, the values of these parameters are replaced.
-/

namespace OakKeyring

open Replacing

namespace Redaction

def REDACTED : List Char := "[REDACTED]".toList

/-- The parameters that are secret, in the order of the pattern. -/
def KEYS : List (List Char) :=
  ["refresh_token".toList, "access_token".toList, "client_secret".toList, "client_id".toList,
    "code".toList, "id_token".toList]

/-- A letter as `(?i)` sees it; two letters outside ASCII fold into it. -/
def foldCase (c : Char) : Char :=
  if 65 ≤ c.toNat ∧ c.toNat ≤ 90 then c.toLower
  else if c = '\u017F' then 's'
  else if c = '\u212A' then 'k'
  else c

/-- `[^&\s,}\]]`. -/
def isValue (c : Char) : Bool :=
  !(c == '&' || isWhitespace c || c == ',' || c == '}' || c == ']')

def QUERY_SECRET : String :=
  "(?i)(refresh_token|access_token|client_secret|client_id|code|id_token)=([^&\\s,\x7d\\]]+)"

/-- One alternative of the pattern at the front of a text: its length and its first group. -/
def matchKey (text key : List Char) : Option (Nat × List Char) :=
  let front := text.take (key.length + 1)
  let value := (text.drop (key.length + 1)).takeWhile isValue
  if front.map foldCase = key ++ ['='] ∧ value ≠ [] then
    some (key.length + 1 + value.length, text.take key.length)
  else none

/-- The pattern at the front of a text, and what is written for the group that it finds. -/
def findMatch (replacement : String → String) (text : List Char) : Option (Nat × List Char) :=
  (KEYS.findSome? (matchKey text)).map fun found =>
    (found.1, (replacement (String.ofList found.2)).toList)

def replacement (group : String) : String :=
  group ++ "=" ++ String.ofList REDACTED

end Redaction

/-- The crate `regex`. -/
class Regex where
  /-- `replace_all`: the pattern, what is written for the first group of a match, and the text. -/
  replaceAll : String → (String → String) → String → String

/-- The text is searched from left to right. What is written stands for the whole match, and the
search goes on behind it. -/
class LawfulRegex [Regex] : Prop where
  replaceAll_eq : ∀ (replacement : String → String) (text : String),
    Regex.replaceAll Redaction.QUERY_SECRET replacement text =
      String.ofList (replaceAll (Redaction.findMatch replacement) text.toList)

def redactSensitiveValues [Regex] (input : String) : String :=
  Regex.replaceAll Redaction.QUERY_SECRET Redaction.replacement input

namespace Redaction

abbrev findSecret : List Char → Option (Nat × List Char) :=
  findMatch replacement

variable {c : Char} {text key before front tail name value value' rest : List Char}

/-! ## Letters -/

theorem foldCase_of_not_value (h : isValue c = false) : foldCase c = c := by
  have hother : ∀ d : Char, (d.toNat < 65 ∨ 90 < d.toNat) → d ≠ '\u017F' → d ≠ '\u212A' →
      foldCase d = d := by
    intro d hrange hs hk
    have hupper : ¬ (65 ≤ d.toNat ∧ d.toNat ≤ 90) := by omega
    unfold foldCase
    rw [if_neg hupper, if_neg hs, if_neg hk]
  simp only [isValue, Bool.not_eq_false', Bool.or_eq_true, beq_iff_eq] at h
  rcases h with (((h | h) | h) | h) | h
  · rw [h]
    decide
  · have hrange : c.toNat < 65 ∨ 90 < c.toNat := by
      simp only [isWhitespace, Bool.or_eq_true, Bool.and_eq_true, decide_eq_true_eq,
        beq_iff_eq] at h
      omega
    apply hother c hrange
    · intro heq
      rw [heq] at h
      exact absurd h (by decide)
    · intro heq
      rw [heq] at h
      exact absurd h (by decide)
  · rw [h]
    decide
  · rw [h]
    decide
  · rw [h]
    decide

theorem foldCase_eq_equals : foldCase c = '=' ↔ c = '=' := by
  constructor
  · intro h
    unfold foldCase at h
    split at h
    case isTrue hupper =>
      have hge : 65 ≤ c.toNat := hupper.1
      have hle : c.toNat ≤ 90 := hupper.2
      have hletters : ∀ n : Fin 26, (Char.ofNat (65 + n)).toLower ≠ '=' := by decide
      have hback : Char.ofNat (65 + (c.toNat - 65)) = c := by
        rw [Nat.add_sub_cancel' hge]
        exact Char.ofNat_toNat c
      have hletter := hletters ⟨c.toNat - 65, by omega⟩
      simp only [hback] at hletter
      exact absurd h hletter
    case isFalse =>
      split at h
      case isTrue => exact absurd h (by decide)
      case isFalse =>
        split at h
        case isTrue => exact absurd h (by decide)
        case isFalse => exact h
  · intro h
    rw [h]
    decide

theorem notMem_map_foldCase : '=' ∉ text.map foldCase ↔ '=' ∉ text := by
  simp [foldCase_eq_equals]

theorem keys_plain : ∀ key ∈ KEYS, '=' ∉ key := by
  decide

theorem keys_values : ∀ key ∈ KEYS, ∀ c ∈ key, isValue c = true := by
  have hall : KEYS.all (fun key => key.all isValue) = true := by decide
  intro key hkey c hc
  exact List.all_eq_true.mp (List.all_eq_true.mp hall key hkey) c hc

/-- No key ends with another one. -/
theorem keys_apart : ∀ key ∈ KEYS, ∀ other ∈ KEYS, other <:+ key → other = key := by
  decide

/-- The name of a parameter could be part of a value. -/
theorem values_of_key (hname : name.map foldCase ∈ KEYS) : ∀ c ∈ name, isValue c = true := by
  intro c hc
  by_contra hvalue
  have hvalue : isValue c = false := Bool.eq_false_iff.mpr hvalue
  have hfold := keys_values _ hname (foldCase c) (List.mem_map_of_mem hc)
  rw [foldCase_of_not_value hvalue, hvalue] at hfold
  cases hfold

/-! ## What is found -/

theorem matchKey_eq (hplain : '=' ∉ name) (hkey : '=' ∉ key) :
    matchKey (name ++ '=' :: rest) key =
      if name.map foldCase = key ∧ rest.takeWhile isValue ≠ [] then
        some (name.length + 1 + (rest.takeWhile isValue).length, name)
      else none := by
  -- the pattern matches as far as the equals sign exactly when the names fold alike
  have hfront : ((name ++ '=' :: rest).take (key.length + 1)).map foldCase = key ++ ['='] ↔
      name.map foldCase = key := by
    constructor
    · intro h
      have hwhole : name.map foldCase ++ foldCase '=' :: rest.map foldCase =
          key ++ '=' :: ((name ++ '=' :: rest).drop (key.length + 1)).map foldCase := by
        calc
          name.map foldCase ++ foldCase '=' :: rest.map foldCase
              = (name ++ '=' :: rest).map foldCase := by simp
          _ = ((name ++ '=' :: rest).take (key.length + 1)).map foldCase ++
                ((name ++ '=' :: rest).drop (key.length + 1)).map foldCase := by
              rw [← List.map_append, List.take_append_drop]
          _ = key ++ '=' :: ((name ++ '=' :: rest).drop (key.length + 1)).map foldCase := by
              rw [h]
              simp
      have hequals : foldCase '=' = '=' := foldCase_eq_equals.mpr rfl
      rw [hequals] at hwhole
      exact eq_of_append_cons (notMem_map_foldCase.mpr hplain) hkey hwhole
    · intro h
      have hlength : key.length = name.length := by rw [← h, List.length_map]
      have htake : (name ++ '=' :: rest).take (name.length + 1) = name ++ ['='] := by
        simp [List.take_append, List.take_of_length_le]
      rw [hlength, htake, List.map_append, h, List.map_singleton, foldCase_eq_equals.mpr rfl]
  unfold matchKey
  dsimp only
  by_cases hname : name.map foldCase = key
  -- the value starts behind it
  · have hlength : key.length = name.length := by rw [← hname, List.length_map]
    have hdrop : (name ++ '=' :: rest).drop (name.length + 1) = rest := by
      simp [List.drop_append]
    simp only [hfront, hname, true_and]
    rw [hlength, hdrop, List.take_left]
  · simp only [hfront, hname, false_and, if_false]

/-- At the front of a text only one name can stand before the first equals sign. -/
theorem findSecret_eq (hplain : '=' ∉ name) :
    findSecret (name ++ '=' :: rest) =
      if name.map foldCase ∈ KEYS ∧ rest.takeWhile isValue ≠ [] then
        some (name.length + 1 + (rest.takeWhile isValue).length, name ++ '=' :: REDACTED)
      else none := by
  have hgen : ∀ keys : List (List Char), (∀ key ∈ keys, '=' ∉ key) →
      keys.findSome? (matchKey (name ++ '=' :: rest)) =
        if name.map foldCase ∈ keys ∧ rest.takeWhile isValue ≠ [] then
          some (name.length + 1 + (rest.takeWhile isValue).length, name)
        else none := by
    intro keys hkeys
    induction keys with
    | nil => simp
    | cons key keys ih =>
        have hrest := ih fun other hother => hkeys other (List.mem_cons_of_mem key hother)
        rw [List.findSome?_cons, matchKey_eq hplain (hkeys key List.mem_cons_self), hrest]
        by_cases hname : name.map foldCase = key
        · by_cases hvalue : rest.takeWhile isValue = []
          · simp [hvalue]
          · simp [hname, hvalue]
        · simp [hname]
  have hwritten : (replacement (String.ofList name)).toList = name ++ '=' :: REDACTED := by
    simp [replacement]
  unfold findSecret findMatch
  rw [hgen KEYS keys_plain]
  split
  · simp only [Option.map_some, hwritten]
  · rfl

/-! ## Values that differ -/

theorem takeWhile_value (hvalue : ∀ c ∈ value, isValue c = true)
    (hrest : ∀ c ∈ rest.head?, isValue c = false) :
    (value ++ rest).takeWhile isValue = value := by
  rw [List.takeWhile_append_of_pos hvalue]
  cases rest with
  | nil => simp
  | cons c rest => simp [hrest c rfl]

/-- A secret parameter with its value, which ends where the rest of the message begins. -/
structure SecretAt (name value rest : List Char) : Prop where
  name : name.map foldCase ∈ KEYS
  nonempty : value ≠ []
  value : ∀ c ∈ value, isValue c = true
  rest : ∀ c ∈ rest.head?, isValue c = false

theorem secretAt_of_matchKey (hkey : key ∈ KEYS) (h : matchKey text key ≠ none) :
    ∃ name value rest, text = name ++ '=' :: (value ++ rest) ∧ SecretAt name value rest := by
  have hfront : (text.take (key.length + 1)).map foldCase = key ++ ['='] ∧
      (text.drop (key.length + 1)).takeWhile isValue ≠ [] := by
    by_contra hnot
    exact h (if_neg hnot)
  rcases hfront with ⟨hfront, hvalue⟩
  rcases List.map_eq_append_iff.mp hfront with ⟨name, last, htake, hname, hlast⟩
  rcases List.map_eq_singleton_iff.mp hlast with ⟨c, hc, hequals⟩
  rw [hc, foldCase_eq_equals.mp hequals] at htake
  refine ⟨name, (text.drop (key.length + 1)).takeWhile isValue,
    (text.drop (key.length + 1)).dropWhile isValue, ?_, ?_⟩
  · calc text
        = text.take (key.length + 1) ++ text.drop (key.length + 1) :=
          (List.take_append_drop _ _).symm
      _ = name ++ '=' :: ((text.drop (key.length + 1)).takeWhile isValue ++
            (text.drop (key.length + 1)).dropWhile isValue) := by
          rw [htake, List.takeWhile_append_dropWhile, List.append_assoc]
          rfl
  · refine ⟨hname ▸ hkey, hvalue, fun c hc => List.mem_takeWhile_imp hc, ?_⟩
    intro c hc
    have hnot := List.head?_dropWhile_not isValue (text.drop (key.length + 1))
    rw [Option.mem_def.mp hc] at hnot
    exact hnot

/-- What is found is a secret parameter with its value. -/
theorem secretAt_of_findSecret (h : findSecret text ≠ none) :
    ∃ name value rest, text = name ++ '=' :: (value ++ rest) ∧ SecretAt name value rest := by
  cases hfound : KEYS.findSome? (matchKey text) with
  | none =>
      refine absurd ?_ h
      unfold findSecret findMatch
      rw [hfound]
      rfl
  | some found =>
      rcases List.exists_of_findSome?_eq_some hfound with ⟨key, hkey, hmatch⟩
      exact secretAt_of_matchKey hkey (by rw [hmatch]; exact Option.some_ne_none found)

theorem SecretAt.plain (h : SecretAt name value rest) : '=' ∉ name :=
  notMem_map_foldCase.mp (keys_plain _ h.name)

/-- A value before the parameter takes the whole parameter with it. -/
theorem SecretAt.takeWhile_through (h : SecretAt name value rest)
    (htail : ∀ c ∈ tail, isValue c = true) :
    (tail ++ (name ++ '=' :: (value ++ rest))).takeWhile isValue =
      tail ++ (name ++ '=' :: value) := by
  have hcut : tail ++ (name ++ '=' :: (value ++ rest)) =
      (tail ++ (name ++ '=' :: value)) ++ rest := by simp
  rw [hcut]
  apply takeWhile_value _ h.rest
  intro c hc
  simp only [List.mem_append, List.mem_cons] at hc
  rcases hc with hc | hc | hc | hc
  · exact htail c hc
  · exact values_of_key h.name c hc
  · rw [hc]
    decide
  · exact h.value c hc

theorem takeWhile_within (htail : ¬ ∀ c ∈ tail, isValue c = true) (text : List Char) :
    (tail ++ text).takeWhile isValue = tail.takeWhile isValue := by
  have hshort : (tail.takeWhile isValue).length ≠ tail.length := by
    intro hlength
    have hsame := (List.takeWhile_sublist isValue).eq_of_length hlength
    exact htail (List.takeWhile_eq_self_iff.mp hsame)
  rw [List.takeWhile_append, if_neg hshort]

/-- A name with an equals sign decides alone what is found. -/
theorem findSecret_front (hplain : '=' ∉ front) (text : List Char) :
    findSecret (front ++ '=' :: tail ++ text) =
      if front.map foldCase ∈ KEYS ∧ (tail ++ text).takeWhile isValue ≠ [] then
        some (front.length + 1 + ((tail ++ text).takeWhile isValue).length,
          front ++ '=' :: REDACTED)
      else none := by
  rw [List.append_assoc, List.cons_append]
  exact findSecret_eq hplain

theorem agree_unnamed (hplain : '=' ∉ front) (hfront : front.map foldCase ∉ KEYS)
    (text text' : List Char) :
    Agree findSecret (front ++ '=' :: tail ++ text) (front ++ '=' :: tail ++ text')
      (front ++ '=' :: tail).length := by
  have hnone : ∀ text, findSecret (front ++ '=' :: tail ++ text) = none := by
    intro text
    rw [findSecret_front hplain, if_neg fun hboth => hfront hboth.1]
  exact .quiet (List.length_pos_iff.mpr (by simp)) (hnone text) (hnone text')

/-- The value of an earlier parameter ends before the texts differ. -/
theorem agree_within (hplain : '=' ∉ front) (hfront : front.map foldCase ∈ KEYS)
    (htail : ¬ ∀ c ∈ tail, isValue c = true) (text text' : List Char) :
    Agree findSecret (front ++ '=' :: tail ++ text) (front ++ '=' :: tail ++ text')
      (front ++ '=' :: tail).length := by
  by_cases hempty : tail.takeWhile isValue = []
  · have hnone : ∀ text, findSecret (front ++ '=' :: tail ++ text) = none := by
      intro text
      rw [findSecret_front hplain, takeWhile_within htail, if_neg fun hboth => hboth.2 hempty]
    exact .quiet (List.length_pos_iff.mpr (by simp)) (hnone text) (hnone text')
  · have hsome : ∀ text, findSecret (front ++ '=' :: tail ++ text) =
        some (front.length + 1 + (tail.takeWhile isValue).length, front ++ '=' :: REDACTED) := by
      intro text
      rw [findSecret_front hplain, takeWhile_within htail, if_pos ⟨hfront, hempty⟩]
    have hle : front.length + 1 + (tail.takeWhile isValue).length ≤
        (front ++ '=' :: tail).length := by
      have hshort := (List.takeWhile_sublist isValue (l := tail)).length_le
      rw [List.length_append, List.length_cons]
      omega
    exact .inside (by omega) hle (hsome text) (hsome text')

/-- The value of an earlier parameter reaches over the whole parameter. -/
theorem SecretAt.agree_through (h : SecretAt name value rest) (h' : SecretAt name value' rest)
    (hplain : '=' ∉ front) (hfront : front.map foldCase ∈ KEYS)
    (htail : ∀ c ∈ tail, isValue c = true) :
    Agree findSecret (front ++ '=' :: tail ++ (name ++ '=' :: (value ++ rest)))
      (front ++ '=' :: tail ++ (name ++ '=' :: (value' ++ rest))) (front ++ '=' :: tail).length := by
  have hover : ∀ v, SecretAt name v rest →
      findSecret (front ++ '=' :: tail ++ (name ++ '=' :: (v ++ rest))) =
        some (front.length + 1 + (tail ++ (name ++ '=' :: v)).length, front ++ '=' :: REDACTED) := by
    intro v hv
    rw [findSecret_front hplain, hv.takeWhile_through htail]
    exact if_pos ⟨hfront, by simp⟩
  have hdrop : ∀ v, (front ++ '=' :: tail ++ (name ++ '=' :: (v ++ rest))).drop
      (front.length + 1 + (tail ++ (name ++ '=' :: v)).length) = rest := by
    intro v
    have hcut : front ++ '=' :: tail ++ (name ++ '=' :: (v ++ rest)) =
        (front ++ '=' :: (tail ++ (name ++ '=' :: v))) ++ rest := by simp
    rw [hcut]
    apply List.drop_left'
    simp only [List.length_append, List.length_cons]
    omega
  exact .across (by omega) (by omega) (hover value h) (hover value' h')
    ((hdrop value).trans (hdrop value').symm)

/-- Without an earlier equals sign the parameter is found with all that stands before it. -/
theorem SecretAt.findSecret_plain (h : SecretAt name value rest) (hbefore : '=' ∉ before) :
    findSecret (before ++ (name ++ '=' :: (value ++ rest))) =
      if (before ++ name).map foldCase ∈ KEYS then
        some ((before ++ name).length + 1 + value.length, before ++ name ++ '=' :: REDACTED)
      else none := by
  have hplain : '=' ∉ before ++ name := by
    simp [hbefore, h.plain]
  rw [← List.append_assoc, findSecret_eq hplain, takeWhile_value h.value h.rest]
  simp [h.nonempty]

theorem SecretAt.findSecret_here (h : SecretAt name value rest) :
    findSecret (name ++ '=' :: (value ++ rest)) =
      some (name.length + 1 + value.length, name ++ '=' :: REDACTED) :=
  (h.findSecret_plain List.not_mem_nil).trans (if_pos h.name)

theorem SecretAt.findSecret_longer (h : SecretAt name value rest) (hne : before ≠ [])
    (hbefore : '=' ∉ before) : findSecret (before ++ (name ++ '=' :: (value ++ rest))) = none := by
  rw [h.findSecret_plain hbefore]
  apply if_neg
  intro hmem
  have hsuffix : name.map foldCase <:+ (before ++ name).map foldCase := by
    rw [List.map_append]
    exact List.suffix_append _ _
  have hsame := congrArg List.length (keys_apart _ hmem _ h.name hsuffix)
  simp only [List.length_map, List.length_append] at hsame
  have hpos := List.length_pos_iff.mpr hne
  omega

/-- Whatever stands before a parameter, nothing that is found depends on the value. -/
theorem SecretAt.agree (h : SecretAt name value rest) (h' : SecretAt name value' rest)
    (before : List Char) :
    Agree findSecret (before ++ (name ++ '=' :: (value ++ rest)))
      (before ++ (name ++ '=' :: (value' ++ rest))) before.length := by
  by_cases hequals : '=' ∈ before
  -- the first name ends before the parameter
  · obtain ⟨front, tail, hbefore, hplain⟩ := List.eq_append_cons_of_mem hequals
    rw [hbefore]
    by_cases hfront : front.map foldCase ∈ KEYS
    · by_cases htail : ∀ c ∈ tail, isValue c = true
      · exact h.agree_through h' hplain hfront htail
      · exact agree_within hplain hfront htail _ _
    · exact agree_unnamed hplain hfront _ _
  · by_cases hne : before = []
    · rw [hne]
      have hdrop : ∀ v : List Char,
          (name ++ '=' :: (v ++ rest)).drop (name.length + 1 + v.length) = rest := by
        intro v
        have hcut : name ++ '=' :: (v ++ rest) = (name ++ '=' :: v) ++ rest := by simp
        rw [hcut]
        apply List.drop_left'
        simp only [List.length_append, List.length_cons]
        omega
      exact .across (by omega) (by omega) h.findSecret_here h'.findSecret_here
        ((hdrop value).trans (hdrop value').symm)
    · exact .quiet (List.length_pos_iff.mpr hne) (h.findSecret_longer hne hequals)
        (h'.findSecret_longer hne hequals)

/-! ## Messages -/

/-- Messages that differ in the values of secret parameters only. -/
inductive SameButSecrets : List Char → List Char → Prop
  | refl (text : List Char) : SameButSecrets text text
  | trans {text text' text'' : List Char} (h : SameButSecrets text text')
      (h' : SameButSecrets text' text'') : SameButSecrets text text''
  | value {name value value' rest : List Char} (before : List Char)
      (h : SecretAt name value rest) (h' : SecretAt name value' rest) :
      SameButSecrets (before ++ (name ++ '=' :: (value ++ rest)))
        (before ++ (name ++ '=' :: (value' ++ rest)))

theorem SameButSecrets.replaced {text text' : List Char} (h : SameButSecrets text text') :
    replaceAll findSecret text = replaceAll findSecret text' := by
  induction h with
  | refl text => rfl
  | trans _ _ ih ih' => exact ih.trans ih'
  | value before h h' => exact replaceAll_congr (by simp) (by simp) (h.agree h')

end Redaction

open Redaction in
/-- A redacted message says nothing about the values of secret parameters, and a message in which
no secret parameter has a value is left as it is. -/
theorem redactSensitiveValues_hides [Regex] [LawfulRegex] {input input' : String}
    (h : SameButSecrets input.toList input'.toList) :
    redactSensitiveValues input = redactSensitiveValues input' ∧
      ((∀ before name value rest, input.toList = before ++ (name ++ '=' :: (value ++ rest)) →
        ¬ SecretAt name value rest) → redactSensitiveValues input = input) := by
  have hredacted : ∀ text : String,
      redactSensitiveValues text = String.ofList (replaceAll findSecret text.toList) :=
    fun text => LawfulRegex.replaceAll_eq replacement text
  rw [hredacted, hredacted]
  constructor
  · exact congrArg String.ofList h.replaced
  · intro hnone
    have hsame : replaceAll findSecret input.toList = input.toList := by
      apply replaceAll_eq_self
      intro before a after htext
      by_contra hfound
      rcases secretAt_of_findSecret hfound with ⟨name, value, rest, hafter, hsecret⟩
      rw [hafter] at htext
      exact hnone before name value rest htext hsecret
    rw [hsame, String.ofList_toList]

namespace TokenError

/-- The text of an error that quotes the token it was made with. -/
def text (token : List Char) : List Char :=
  "at https://host/token?".toList ++
    ("Refresh_Token".toList ++ '=' :: (token ++ "&grant_type=refresh".toList))

def message (token : String) : String :=
  String.ofList (text token.toList)

theorem toList_message (token : String) : (message token).toList = text token.toList :=
  String.toList_ofList

open Redaction in
theorem secretAt {token : List Char} (hnonempty : token ≠ []) (hall : token.all isValue = true) :
    SecretAt "Refresh_Token".toList token "&grant_type=refresh".toList where
  name := by decide
  nonempty := hnonempty
  value := List.all_eq_true.mp hall
  rest := by
    intro c hc
    have hhead : "&grant_type=refresh".toList.head? = some '&' := by rfl
    rw [hhead, Option.mem_some] at hc
    rw [← hc]
    decide

end TokenError

/-- The crate on the one pattern. -/
abbrev referenceRegex : Regex where
  replaceAll pattern replacement text :=
    if pattern = Redaction.QUERY_SECRET then
      String.ofList (replaceAll (Redaction.findMatch replacement) text.toList)
    else text

theorem referenceRegex_lawful : @LawfulRegex referenceRegex :=
  letI : Regex := referenceRegex
  { replaceAll_eq := fun _ _ => if_pos rfl }

attribute [local instance] referenceRegex in
open Redaction TokenError in
theorem redactSensitiveValues_hides_token :
    redactSensitiveValues (message "abc") = redactSensitiveValues (message "0123456") ∧
      redactSensitiveValues (message "abc") =
        "at https://host/token?Refresh_Token=[REDACTED]&grant_type=refresh" :=
  have := referenceRegex_lawful
  ⟨(redactSensitiveValues_hides
    (by
      rw [toList_message, toList_message]
      apply SameButSecrets.value
      · exact secretAt (by decide) (by decide)
      · exact secretAt (by decide) (by decide))).1,
    by decide⟩

end OakKeyring
