import OakKeyring.Crypto.Password
import OakKeyring.Lib.FormData

/-!
# What a random password is made of

A request asks for a length, for some of every class that it selects and for nothing of the
others. The two generators that take a request give exactly that, whatever the source draws. The
command gives it where the draws happen to.
-/

namespace OakKeyring

open Effect

inductive CharClass
  | lowercase
  | uppercase
  | digits
  | special
deriving DecidableEq, Repr

instance : Fintype CharClass where
  elems := {.lowercase, .uppercase, .digits, .special}
  complete k := by cases k <;> decide

namespace CharClass

def alphabet : CharClass → Alphabet
  | lowercase => LOWERCASE
  | uppercase => UPPERCASE
  | digits => DIGITS
  | special => SPECIAL

def characters (k : CharClass) : List Char :=
  k.alphabet.bytes.map Char.ofUInt8

/-- Some character of each class. -/
def letter : CharClass → Char
  | lowercase => 'a'
  | uppercase => 'A'
  | digits => '2'
  | special => '!'

theorem sum_eq (f : CharClass → Nat) :
    ∑ k, f k = f lowercase + f uppercase + f digits + f special := by
  have huniv : (Finset.univ : Finset CharClass) = {lowercase, uppercase, digits, special} := rfl
  rw [huniv]
  simp [Finset.sum_insert, Nat.add_assoc]

end CharClass

/-- The class of a character of the four alphabets. -/
def charClass (c : Char) : Option CharClass :=
  [CharClass.lowercase, .uppercase, .digits, .special].find? fun k => k.characters.contains c

def byteClass (b : UInt8) : Option CharClass :=
  charClass (Char.ofUInt8 b)

theorem byteClass_of_mem {k : CharClass} {b : UInt8} (h : b ∈ k.alphabet.bytes) :
    byteClass b = some k := by
  have hall : ∀ k : CharClass, ∀ b ∈ k.alphabet.bytes, byteClass b = some k := by
    intro k
    cases k <;> decide +kernel
  exact hall k b h

theorem charClass_letter (k : CharClass) : charClass k.letter = some k := by
  cases k <;> decide +kernel

theorem mem_charset {b : UInt8} (h : b ∈ charset.bytes) : ∃ k, byteClass b = some k := by
  have hmem : ∃ k : CharClass, b ∈ k.alphabet.bytes := by
    simp only [charset, Alphabet.extend, Option.map_some, Option.getD_some,
      List.mem_append] at h
    rcases h with ((h | h) | h) | h
    · exact ⟨.lowercase, h⟩
    · exact ⟨.uppercase, h⟩
    · exact ⟨.digits, h⟩
    · exact ⟨.special, h⟩
  exact hmem.imp fun k => byteClass_of_mem

/-! ## Draws -/

section Source

variable {S : Type} [OsRng S]

/-- The next draws. -/
def drawn : Nat → S → List UInt32
  | 0, _ => []
  | n + 1, s => (OsRng.nextU32 s).1 :: drawn n (OsRng.nextU32 s).2

/-- The source after so many draws. -/
def afterDraws : Nat → S → S
  | 0, s => s
  | n + 1, s => afterDraws n (OsRng.nextU32 s).2

variable {choices : Alphabet} {s : S}

/-- The bytes that the next draws fall on. -/
def picked (choices : Alphabet) (n : Nat) (s : S) : Bytes :=
  (drawn n s).map choices.pick

@[simp] theorem length_picked (n : Nat) : (picked choices n s).length = n := by
  induction n generalizing s with
  | zero => rfl
  | succ n ih => simpa [picked, drawn] using ih (s := (OsRng.nextU32 s).2)

theorem mem_of_mem_picked {n : Nat} {b : UInt8} (h : b ∈ picked choices n s) :
    b ∈ choices.bytes := by
  obtain ⟨draw, -, rfl⟩ := List.mem_map.1 h
  exact choices.pick_mem draw

theorem exec_randomFromSlice :
    Stateful.exec (randomFromSlice choices) s =
      (.ok (choices.pick (OsRng.nextU32 s).1), (OsRng.nextU32 s).2) := rfl

theorem exec_pushRandom (n : Nat) (password : Bytes) :
    Stateful.exec (pushRandom choices n password) s =
      (.ok (password ++ picked choices n s), afterDraws n s) := by
  induction n generalizing password s with
  | zero => simp [pushRandom, picked, drawn, afterDraws]
  | succ n ih =>
      rw [pushRandom, Stateful.exec_bind_ok exec_randomFromSlice, ih]
      simp [picked, drawn, afterDraws]

theorem exec_pushRandomChars (n : Nat) (password : String) :
    Stateful.exec (pushRandomChars choices n password) s =
      (.ok (String.ofList (password.toList ++ (picked choices n s).map Char.ofUInt8)),
        afterDraws n s) := by
  induction n generalizing password s with
  | zero => simp [pushRandomChars, picked, drawn, afterDraws, String.ofList_toList]
  | succ n ih =>
      rw [pushRandomChars, Stateful.exec_bind_ok exec_randomFromSlice, ih]
      simp [picked, drawn, afterDraws, String.toList_push]

end Source

/-! ## Bytes as text -/

/-- ASCII bytes are a text. -/
theorem fromUtf8_ascii {bs : Bytes} (h : ∀ b ∈ bs, b.toNat < 128) :
    fromUtf8 bs = .ok (String.ofList (bs.map Char.ofUInt8)) := by
  have hencode : (bs.map Char.ofUInt8).utf8Encode = bs.toByteArray := by
    have hflat : (bs.map Char.ofUInt8).flatMap String.utf8EncodeChar = bs := by
      induction bs with
      | nil => rfl
      | cons b bs ih =>
          have hrest := ih fun c hc => h c (List.mem_cons_of_mem b hc)
          simp [FormData.utf8EncodeChar_ofUInt8 (h b List.mem_cons_self), hrest]
    rw [List.utf8Encode, hflat]
  have hvalid : bs.toByteArray.IsValidUTF8 := ⟨_, hencode.symm⟩
  have hsome : String.fromUTF8? bs.toByteArray = some (String.ofList (bs.map Char.ofUInt8)) := by
    simp only [String.fromUTF8?, hvalid, dif_pos, String.fromUTF8, String.ofList, hencode]
  rw [fromUtf8, hsome]

/-! ## The generators -/

/-- A text of the four alphabets that the quota accepts. -/
def MeetsQuota (q : Quota CharClass) (length : Nat) (password : String) : Prop :=
  Quota.Meets charClass q length password.toList

theorem meetsQuota_ofList_iff {q : Quota CharClass} {length : Nat} {bs : Bytes} :
    MeetsQuota q length (String.ofList (bs.map Char.ofUInt8)) ↔
      Quota.Meets byteClass q length bs := by
  rw [MeetsQuota, String.toList_ofList, Quota.meets_map_iff]
  rfl

/-- When a text of some length exists that the quota accepts. -/
theorem exists_meetsQuota_iff {q : Quota CharClass} {length : Nat} :
    (∃ password, MeetsQuota q length password) ↔
      ∑ k, q.minimum k ≤ length ∧ (length = 0 ∨ ∃ k, q.allowed k = true) := by
  rw [← Quota.exists_meets_iff charClass_letter]
  constructor
  · intro ⟨password, h⟩
    exact ⟨password.toList, h⟩
  · intro ⟨w, h⟩
    exact ⟨String.ofList w, by rw [MeetsQuota, String.toList_ofList]; exact h⟩

/-- Every class as often as the policy asks, and nothing excluded. -/
def policyQuota (minDigits minSpecial minLowercase minUppercase : UInt8) : Quota CharClass where
  minimum
    | .lowercase => minLowercase.toNat
    | .uppercase => minUppercase.toNat
    | .digits => minDigits.toNat
    | .special => minSpecial.toNat
  allowed _ := true
  allowed_of_minimum _ _ := rfl

/-- Every selected class once, and no other. -/
def selectedQuota (selected : CharClass → Bool) : Quota CharClass where
  minimum k := (selected k).toNat
  allowed := selected
  allowed_of_minimum k h := by
    cases hk : selected k with
    | true => rfl
    | false => simp [hk] at h

section Generators

variable {S : Type} [OsRng S] {s : S} {length : Nat}

/-- The bytes picked from the alphabet of a class all count for it. -/
theorem count_picked (k j : CharClass) (n : Nat) :
    Quota.count byteClass (picked k.alphabet n s) j = if k = j then n else 0 := by
  have hclass : ∀ b ∈ picked k.alphabet n s, byteClass b = some k := fun b hb =>
    byteClass_of_mem (mem_of_mem_picked hb)
  split
  · next hkj =>
      subst hkj
      calc Quota.count byteClass (picked k.alphabet n s) k
          = (picked k.alphabet n s).length :=
            List.countP_eq_length.2 fun b hb => decide_eq_true (hclass b hb)
        _ = n := length_picked n
  · next hkj =>
      refine List.countP_eq_zero.2 fun b hb => ?_
      simpa [hclass b hb] using hkj

/-- The bytes that a policy requires, in the order of their draws. -/
def requiredBytes (minDigits minSpecial minLowercase minUppercase : Nat) (s : S) : Bytes :=
  picked LOWERCASE minLowercase s ++ picked UPPERCASE minUppercase (afterDraws minLowercase s) ++
    picked DIGITS minDigits (afterDraws minUppercase (afterDraws minLowercase s)) ++
    picked SPECIAL minSpecial
      (afterDraws minDigits (afterDraws minUppercase (afterDraws minLowercase s)))

theorem afterDraws_add (m n : Nat) : afterDraws n (afterDraws m s) = afterDraws (m + n) s := by
  induction m generalizing s with
  | zero => simp [afterDraws]
  | succ m ih => simp [afterDraws, ih, Nat.succ_add]

theorem ascii_of_mem_alphabet {as : Alphabet} {n : Nat} {b : UInt8} (h : b ∈ picked as n s) :
    b.toNat < 128 :=
  as.ascii b (mem_of_mem_picked h)

theorem exec_shuffle (password : Bytes) :
    Stateful.exec (shuffle password) s =
      (.ok (OsRng.shuffle password s).1, (OsRng.shuffle password s).2) := rfl

/-- Shuffled ASCII bytes become a text of the same characters. -/
theorem exec_shuffle_fromUtf8 {password : Bytes} (h : ∀ b ∈ password, b.toNat < 128) :
    ∃ bs : Bytes, bs.Perm password ∧
      (Stateful.exec (do
        let password ← shuffle password
        MonadExcept.ofExcept (fromUtf8 password)) s).1 =
        .ok (String.ofList (bs.map Char.ofUInt8)) := by
  have hperm := OsRng.shuffle_perm password s
  refine ⟨(OsRng.shuffle password s).1, hperm, ?_⟩
  have htext := fromUtf8_ascii fun b hb => h b (hperm.subset hb)
  rw [Stateful.exec_bind_ok (exec_shuffle password), htext]
  rfl

/-! ### By policy -/

/-- The bytes of a policy before they are shuffled. -/
def policyBytes (length minDigits minSpecial minLowercase minUppercase : Nat) (s : S) : Bytes :=
  requiredBytes minDigits minSpecial minLowercase minUppercase s ++
    picked charset (length - (minDigits + minSpecial + minLowercase + minUppercase))
      (afterDraws (minDigits + minSpecial + minLowercase + minUppercase) s)

theorem ascii_of_mem_policyBytes {d p l u : Nat} {b : UInt8}
    (h : b ∈ policyBytes length d p l u s) : b.toNat < 128 := by
  simp only [policyBytes, requiredBytes, List.mem_append] at h
  rcases h with (((h | h) | h) | h) | h
  all_goals exact ascii_of_mem_alphabet h

theorem length_requiredBytes (d p l u : Nat) :
    (requiredBytes d p l u s).length = d + p + l + u := by
  simp only [requiredBytes, List.length_append, length_picked]
  omega

/-- What a policy requires is of each class as often as it asks. -/
theorem count_requiredBytes (d p l u : Nat) (k : CharClass) :
    Quota.count byteClass (requiredBytes d p l u s) k =
      match k with
      | .lowercase => l
      | .uppercase => u
      | .digits => d
      | .special => p := by
  have hlower := fun s : S => count_picked (s := s) .lowercase k l
  have hupper := fun s : S => count_picked (s := s) .uppercase k u
  have hdigits := fun s : S => count_picked (s := s) .digits k d
  have hspecial := fun s : S => count_picked (s := s) .special k p
  simp only [CharClass.alphabet] at hlower hupper hdigits hspecial
  simp only [requiredBytes, Quota.count_append, hlower, hupper, hdigits, hspecial]
  cases k <;> simp

theorem exec_policy (minDigits minSpecial minLowercase minUppercase : UInt8)
    (hlength : 4 ≤ length ∧ length ≤ 128)
    (hrequired :
      minDigits.toNat + minSpecial.toNat + minLowercase.toNat + minUppercase.toNat ≤ length) :
    ∃ bs : Bytes, bs.Perm (policyBytes length minDigits.toNat minSpecial.toNat minLowercase.toNat
        minUppercase.toNat s) ∧
      (Stateful.exec (generateRandomPasswordWithPolicy length minDigits minSpecial minLowercase
        minUppercase) s).1 = .ok (String.ofList (bs.map Char.ofUInt8)) := by
  simp only [generateRandomPasswordWithPolicy, hlength, and_self, if_true, hrequired]
  -- the five loops push in the order of their draws
  rw [Stateful.exec_bind_ok (exec_pushRandom ..), Stateful.exec_bind_ok (exec_pushRandom ..),
    Stateful.exec_bind_ok (exec_pushRandom ..), Stateful.exec_bind_ok (exec_pushRandom ..),
    Stateful.exec_bind_ok (exec_pushRandom ..)]
  have hstate : ∀ d p l u : Nat,
      afterDraws p (afterDraws d (afterDraws u (afterDraws l s))) = afterDraws (d + p + l + u) s :=
    fun d p l u => by
      simp only [afterDraws_add]
      exact congrArg (afterDraws · s) (by omega)
  rw [hstate]
  exact exec_shuffle_fromUtf8 fun b hb => ascii_of_mem_policyBytes hb

theorem class_of_mem_requiredBytes {d p l u : Nat} {b : UInt8}
    (h : b ∈ requiredBytes d p l u s) : ∃ k, byteClass b = some k := by
  simp only [requiredBytes, List.mem_append] at h
  rcases h with ((h | h) | h) | h
  · exact ⟨_, byteClass_of_mem (k := .lowercase) (mem_of_mem_picked h)⟩
  · exact ⟨_, byteClass_of_mem (k := .uppercase) (mem_of_mem_picked h)⟩
  · exact ⟨_, byteClass_of_mem (k := .digits) (mem_of_mem_picked h)⟩
  · exact ⟨_, byteClass_of_mem (k := .special) (mem_of_mem_picked h)⟩

/-- A quota that asks for just what the policy requires is met when the rest is allowed. -/
theorem meets_policyBytes_iff {q : Quota CharClass} {d p l u : Nat}
    (hrequired : d + p + l + u ≤ length)
    (hq : q.minimum = fun k => match k with
      | .lowercase => l
      | .uppercase => u
      | .digits => d
      | .special => p) :
    Quota.Meets byteClass q length (policyBytes length d p l u s) ↔
      ∀ b ∈ picked charset (length - (d + p + l + u)) (afterDraws (d + p + l + u) s),
        ∃ k, byteClass b = some k ∧ q.allowed k = true := by
  refine Quota.meets_exact_append_iff ?_ (fun b => class_of_mem_requiredBytes) fun k => ?_
  · rw [length_requiredBytes, length_picked]
    omega
  · rw [count_requiredBytes, hq]

/-! ### By classes -/

/-- What the generator by classes has prepared for the classes selected so far. -/
structure Prepared (selected : CharClass → Bool) (acc : Bytes × Option Alphabet) : Prop where
  of_required : ∀ b ∈ acc.1, ∃ k : CharClass, b ∈ k.alphabet.bytes
  count_eq : ∀ k, Quota.count byteClass acc.1 k = (selected k).toNat
  choices_eq_none : acc.2 = none ↔ ∀ k, selected k = false
  of_choices : ∀ as, acc.2 = some as → ∀ b ∈ as.bytes,
    ∃ k : CharClass, b ∈ k.alphabet.bytes ∧ selected k = true

theorem prepared_nil : Prepared (fun _ => false) ([], none) where
  of_required b h := by cases h
  count_eq k := rfl
  choices_eq_none := by simp
  of_choices as h := by cases h

/-- One more class. -/
theorem Prepared.step {selected : CharClass → Bool} {acc : Bytes × Option Alphabet}
    (h : Prepared selected acc) {k : CharClass} (hk : selected k = false) (enabled : Bool) :
    ∃ acc' s', Stateful.exec (requireType enabled k.alphabet acc) s = (.ok acc', s') ∧
      Prepared (fun j => selected j || (enabled && decide (k = j))) acc' := by
  cases enabled with
  | false => exact ⟨acc, s, rfl, by simpa using h⟩
  | true =>
      have hmem := k.alphabet.pick_mem (OsRng.nextU32 s).1
      have hclass := byteClass_of_mem hmem
      refine ⟨_, _, rfl, ?_, fun j => ?_, ?_, fun as has b hb => ?_⟩
      · intro b hb
        rcases List.mem_append.1 hb with hb | hb
        · exact h.of_required b hb
        · exact ⟨k, List.mem_singleton.1 hb ▸ hmem⟩
      · rw [Quota.count_append, h.count_eq j]
        by_cases hj : k = j
        · subst hj
          simp [Quota.count, hclass, hk]
        · simp [Quota.count, hclass, hj]
      · simp only [reduceCtorEq, false_iff]
        exact fun hnone => by simpa using hnone k
      · cases has
        rcases List.mem_append.1 hb with hb | hb
        · cases hacc : acc.2 with
          | none => simp [hacc] at hb
          | some as =>
              obtain ⟨j, hj, hsel⟩ := h.of_choices as hacc b (by simpa [hacc] using hb)
              exact ⟨j, hj, by simp [hsel]⟩
        · exact ⟨k, hb, by simp⟩

theorem Prepared.length_le {selected : CharClass → Bool} {acc : Bytes × Option Alphabet}
    (h : Prepared selected acc) : acc.1.length ≤ 4 := by
  have hclass : ∀ b ∈ acc.1, ∃ k, byteClass b = some k := fun b hb =>
    (h.of_required b hb).imp fun k => byteClass_of_mem
  have hone : ∀ k, (selected k).toNat ≤ 1 := fun k => Bool.toNat_le (selected k)
  calc acc.1.length = ∑ k, Quota.count byteClass acc.1 k := Quota.length_eq_sum_count hclass
    _ = ∑ k, (selected k).toNat := Finset.sum_congr rfl fun k _ => h.count_eq k
    _ ≤ 4 := by
        rw [CharClass.sum_eq]
        have h1 := hone .lowercase
        have h2 := hone .uppercase
        have h3 := hone .digits
        have h4 := hone .special
        omega

theorem Prepared.ascii {selected : CharClass → Bool} {acc : Bytes × Option Alphabet}
    (h : Prepared selected acc) {b : UInt8} (hb : b ∈ acc.1) : b.toNat < 128 := by
  obtain ⟨k, hk⟩ := h.of_required b hb
  exact k.alphabet.ascii b hk

/-- What was prepared is filled up from the selected classes and shuffled. -/
theorem Prepared.exec_fill {selected : CharClass → Bool} {acc : Bytes × Option Alphabet}
    (h : Prepared selected acc) {choices : Alphabet} (hchoices : acc.2 = some choices)
    (hlength : 4 ≤ length) :
    ∃ password, (Stateful.exec (do
        let password ← pushRandom choices (length - acc.1.length) acc.1
        let password ← shuffle password
        MonadExcept.ofExcept (fromUtf8 password)) s).1 = .ok password ∧
      MeetsQuota (selectedQuota selected) length password := by
  have hfour : acc.1.length ≤ length := h.length_le.trans hlength
  have hascii : ∀ b ∈ acc.1 ++ picked choices (length - acc.1.length) s, b.toNat < 128 :=
    fun b hb => (List.mem_append.1 hb).elim h.ascii ascii_of_mem_alphabet
  have hmeets : Quota.Meets byteClass (selectedQuota selected) length
      (acc.1 ++ picked choices (length - acc.1.length) s) := by
    refine (Quota.meets_exact_append_iff ?_ (fun b hb => ?_) h.count_eq).2 fun b hb => ?_
    · rw [length_picked]
      omega
    · exact (h.of_required b hb).imp fun k => byteClass_of_mem
    · obtain ⟨k, hk, hsel⟩ := h.of_choices choices hchoices b (mem_of_mem_picked hb)
      exact ⟨k, byteClass_of_mem hk, hsel⟩
  obtain ⟨bs, hperm, hbs⟩ :=
    exec_shuffle_fromUtf8 (s := afterDraws (length - acc.1.length) s) hascii
  refine ⟨_, ?_, meetsQuota_ofList_iff.2 ((Quota.meets_perm_iff hperm).2 hmeets)⟩
  rw [Stateful.exec_bind_ok (exec_pushRandom ..)]
  exact hbs

/-- The classes that the flags select. -/
def selectedTypes (uppercase lowercase digits symbols : Bool) : CharClass → Bool
  | .lowercase => lowercase
  | .uppercase => uppercase
  | .digits => digits
  | .special => symbols

theorem exists_prepared (uppercase lowercase digits symbols : Bool) :
    ∃ acc s', Prepared (selectedTypes uppercase lowercase digits symbols) acc ∧
      Stateful.exec (do
        let acc ← requireType lowercase LOWERCASE ([], none)
        let acc ← requireType uppercase UPPERCASE acc
        let acc ← requireType digits DIGITS acc
        requireType symbols SPECIAL acc) s = (.ok acc, s') := by
  obtain ⟨acc₁, s₁, h₁, p₁⟩ := prepared_nil.step (s := s) (k := .lowercase) rfl lowercase
  obtain ⟨acc₂, s₂, h₂, p₂⟩ := p₁.step (s := s₁) (k := .uppercase) (by simp) uppercase
  obtain ⟨acc₃, s₃, h₃, p₃⟩ := p₂.step (s := s₂) (k := .digits) (by simp) digits
  obtain ⟨acc₄, s₄, h₄, p₄⟩ := p₃.step (s := s₃) (k := .special) (by simp) symbols
  refine ⟨acc₄, s₄, ?_, ?_⟩
  · convert p₄ using 2 with k
    cases k <;> simp [selectedTypes]
  · simp only [CharClass.alphabet] at h₁ h₂ h₃ h₄
    rw [Stateful.exec_bind_ok h₁, Stateful.exec_bind_ok h₂, Stateful.exec_bind_ok h₃, h₄]

/-- What the generator does when it has a character of every class. -/
def fillUp (length : Nat) (acc : Bytes × Option Alphabet) : Drawing S String :=
  match acc.2 with
  | none => throw "At least one character type must be enabled"
  | some choices => do
      unless acc.1.length ≤ length do
        throw requirementsMessage
      let password ← pushRandom choices (length - acc.1.length) acc.1
      let password ← shuffle password
      MonadExcept.ofExcept (fromUtf8 password)

/-- The generator fails for want of a class, or gives what the quota of the classes accepts. -/
theorem exec_charTypes {uppercase lowercase digits symbols : Bool}
    (hlength : 4 ≤ length ∧ length ≤ 128) :
    let selected := selectedTypes uppercase lowercase digits symbols
    let outcome := (Stateful.exec
      (generateRandomPasswordWithCharTypes length uppercase lowercase digits symbols) s).1
    ((∀ k, selected k = false) ∧ ∃ e, outcome = .error e) ∨
      (∃ k, selected k = true) ∧
        ∃ password, outcome = .ok password ∧
          MeetsQuota (selectedQuota selected) length password := by
  intro selected outcome
  obtain ⟨acc, s', hprepared, hexec⟩ :=
    exists_prepared (s := s) uppercase lowercase digits symbols
  have houtcome : outcome = (Stateful.exec (fillUp length acc) s').1 := by
    simp only [outcome, generateRandomPasswordWithCharTypes, fillUp, hlength, and_self, if_true]
    simp only [← bind_assoc] at hexec ⊢
    exact congrArg Prod.fst (Stateful.exec_bind_ok hexec)
  cases hchoices : acc.2 with
  | none =>
      -- no class is selected
      refine Or.inl ⟨hprepared.choices_eq_none.1 hchoices,
        "At least one character type must be enabled", ?_⟩
      rw [houtcome, fillUp, hchoices]
      rfl
  | some choices =>
      -- one of each class that is selected, and then the rest
      have hsome : ∃ k, selected k = true := by
        by_contra hnone
        have hfalse : ∀ k, selected k = false := fun k => by
          simpa using fun h : selected k = true => hnone ⟨k, h⟩
        simp [hprepared.choices_eq_none.2 hfalse] at hchoices
      refine Or.inr ⟨hsome, ?_⟩
      have hfour : acc.1.length ≤ length := hprepared.length_le.trans hlength.1
      rw [houtcome, fillUp, hchoices]
      simp only [hfour, if_true]
      exact hprepared.exec_fill hchoices hlength.1

end Generators

end OakKeyring
