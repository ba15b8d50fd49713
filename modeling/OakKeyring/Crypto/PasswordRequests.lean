import OakKeyring.Crypto.PasswordClasses

/-!
# Requests for random passwords

The two generators that are told what to draw obey, whatever the source draws. The command
passes on only a part of what it was told, and obeys when the draws make up for it.
-/

namespace OakKeyring

open Effect

/-- Who is asked for a random password, and for what. -/
inductive RandomRequest
  | charTypes (uppercase lowercase digits symbols : Bool)
  | policy (minDigits minSpecial minLowercase minUppercase : UInt8)
  | command (includeDigits includeUppercase includeSpecial : Bool)
deriving DecidableEq, Repr

namespace RandomRequest

/-- Lowercase characters belong to every password of the command. -/
def quota : RandomRequest → Quota CharClass
  | charTypes uppercase lowercase digits symbols =>
      selectedQuota (selectedTypes uppercase lowercase digits symbols)
  | policy minDigits minSpecial minLowercase minUppercase =>
      policyQuota minDigits minSpecial minLowercase minUppercase
  | command includeDigits includeUppercase includeSpecial =>
      selectedQuota (selectedTypes includeUppercase true includeDigits includeSpecial)

variable {S : Type} [OsRng S]

/-- The password, or the text of the error. -/
def outcome (length : Nat) (s : S) : RandomRequest → Except String String
  | charTypes uppercase lowercase digits symbols =>
      (Stateful.exec
        (generateRandomPasswordWithCharTypes length uppercase lowercase digits symbols) s).1
  | policy minDigits minSpecial minLowercase minUppercase =>
      (Stateful.exec (generateRandomPasswordWithPolicy length minDigits minSpecial minLowercase
        minUppercase) s).1
  | command includeDigits includeUppercase includeSpecial =>
      match (handleGeneratePassword length includeDigits includeUppercase includeSpecial s).1 with
      | .PasswordGenerated password _ => .ok password
      | .Error _ _ _ fallback => .error fallback

/-- The outcome is a password as requested, or an error because there is none. -/
def Obeys (r : RandomRequest) (length : Nat) (outcome : Except String String) : Prop :=
  (∀ password, outcome = .ok password → MeetsQuota r.quota length password) ∧
    ((∃ e, outcome = .error e) ↔
      length < 4 ∨ 128 < length ∨ ¬ ∃ password, MeetsQuota r.quota length password)

/-- How many characters the command requires of the generator by policy. -/
def required (includeDigits includeUppercase includeSpecial : Bool) : Nat :=
  includeDigits.toNat + includeSpecial.toNat + 1 + includeUppercase.toNat

/-- The draws, over the four alphabets together, make up for what the command does not pass on:
where it asks for all classes they fall into each of them, and where it excludes some, those that
fill up avoid them. -/
def DrawnRight (length : Nat) (s : S) : RandomRequest → Prop
  | charTypes .. => True
  | policy .. => True
  | command includeDigits includeUppercase includeSpecial =>
      length < 4 ∨ 128 < length ∨
        if includeDigits && includeUppercase && includeSpecial then
          ∀ k, ∃ draw ∈ drawn length s, byteClass (charset.pick draw) = some k
        else
          let n := required includeDigits includeUppercase includeSpecial
          ∀ draw ∈ drawn (length - n) (afterDraws n s), ∃ k,
            byteClass (charset.pick draw) = some k ∧
              selectedTypes includeUppercase true includeDigits includeSpecial k = true

variable {length : Nat} {s : S} {r : RandomRequest} {outcome : Except String String}

theorem obeys_ok_iff {password : String} (hlength : 4 ≤ length ∧ length ≤ 128) :
    r.Obeys length (.ok password) ↔ MeetsQuota r.quota length password := by
  constructor
  · intro h
    exact h.1 password rfl
  · intro h
    refine ⟨fun p hp => Except.ok.inj hp ▸ h, ?_⟩
    have hex : ∃ p, MeetsQuota r.quota length p := ⟨password, h⟩
    simp only [reduceCtorEq, exists_false, false_iff, not_or, not_not]
    exact ⟨by omega, by omega, hex⟩

theorem obeys_error_iff {e : String} :
    r.Obeys length (.error e) ↔
      length < 4 ∨ 128 < length ∨ ¬ ∃ password, MeetsQuota r.quota length password := by
  simp [Obeys]

/-- The length is checked first. -/
theorem obeys_of_length (h : ¬ (4 ≤ length ∧ length ≤ 128)) :
    r.Obeys length (r.outcome length s) := by
  have hout : ∃ e, r.outcome length s = .error e := by
    cases r with
    | charTypes =>
        exact ⟨lengthMessage,
          by simp [RandomRequest.outcome, generateRandomPasswordWithCharTypes, h]⟩
    | policy =>
        exact ⟨lengthMessage, by simp [RandomRequest.outcome, generateRandomPasswordWithPolicy, h]⟩
    | command d u p =>
        have hexec : Stateful.exec (selectGenerator length d u p) s =
            (.error lengthMessage, s) := by
          cases d <;> cases u <;> cases p <;>
            simp [selectGenerator, generateRandomPassword, generateRandomPasswordWithPolicy, h]
        exact ⟨s!"Failed to generate password: {lengthMessage}",
          by simp [RandomRequest.outcome, handleGeneratePassword, hexec]⟩
  obtain ⟨e, he⟩ := hout
  rw [he, obeys_error_iff]
  omega

theorem charTypes_obeys (uppercase lowercase digits symbols : Bool)
    (hlength : 4 ≤ length ∧ length ≤ 128) :
    (charTypes uppercase lowercase digits symbols).Obeys length
      ((charTypes uppercase lowercase digits symbols).outcome length s) := by
  rcases exec_charTypes (s := s) hlength with ⟨hnone, e, he⟩ | ⟨-, password, hout, hmeets⟩
  · rw [RandomRequest.outcome, he, obeys_error_iff, exists_meetsQuota_iff]
    refine Or.inr (Or.inr fun ⟨_, hsome⟩ => ?_)
    rcases hsome with hzero | ⟨k, hk⟩
    · omega
    · exact Bool.false_ne_true ((hnone k).symm.trans hk)
  · rw [RandomRequest.outcome, hout, obeys_ok_iff hlength]
    exact hmeets

theorem sum_policyQuota (d p l u : UInt8) :
    ∑ k, (policyQuota d p l u).minimum k = d.toNat + p.toNat + l.toNat + u.toNat := by
  rw [CharClass.sum_eq]
  simp only [policyQuota]
  omega

theorem policy_obeys (d p l u : UInt8) (hlength : 4 ≤ length ∧ length ≤ 128) :
    (policy d p l u).Obeys length ((policy d p l u).outcome length s) := by
  by_cases hrequired : d.toNat + p.toNat + l.toNat + u.toNat ≤ length
  · obtain ⟨bs, hperm, hout⟩ := exec_policy (s := s) d p l u hlength hrequired
    rw [RandomRequest.outcome, hout, obeys_ok_iff hlength, meetsQuota_ofList_iff,
      Quota.meets_perm_iff hperm, quota, meets_policyBytes_iff hrequired rfl]
    intro b hb
    exact (mem_charset (mem_of_mem_picked hb)).imp fun k hk => ⟨hk, rfl⟩
  · have hout : (policy d p l u).outcome length s = .error requirementsMessage := by
      simp [RandomRequest.outcome, generateRandomPasswordWithPolicy, hlength, hrequired]
    rw [hout, obeys_error_iff, exists_meetsQuota_iff, quota, sum_policyQuota]
    exact Or.inr (Or.inr fun h => hrequired h.1)

/-! ## The command -/

theorem outcome_command {d u p : Bool} {password : String}
    (h : (Stateful.exec (selectGenerator length d u p) s).1 = .ok password) :
    (command d u p).outcome length s = .ok password := by
  obtain ⟨s', hexec⟩ : ∃ s', Stateful.exec (selectGenerator length d u p) s = (.ok password, s') :=
    ⟨_, Prod.ext h rfl⟩
  simp [RandomRequest.outcome, handleGeneratePassword, hexec]

/-- Without a class that is excluded the command guarantees no class. -/
theorem command_all_obeys_iff (hlength : 4 ≤ length ∧ length ≤ 128) :
    (command true true true).Obeys length ((command true true true).outcome length s) ↔
      ∀ k, ∃ draw ∈ drawn length s, byteClass (charset.pick draw) = some k := by
  have hexec : (Stateful.exec (selectGenerator length true true true) s).1 =
      .ok (String.ofList ((picked charset length s).map Char.ofUInt8)) := by
    simp only [selectGenerator, Bool.and_self, if_true, generateRandomPassword, hlength, and_self]
    rw [exec_pushRandomChars]
    rfl
  have hall : ∀ k, selectedTypes true true true true k = true := by
    intro k
    cases k <;> rfl
  rw [outcome_command hexec, obeys_ok_iff hlength, meetsQuota_ofList_iff]
  constructor
  · intro h k
    have hone : 1 ≤ Quota.count byteClass (picked charset length s) k := by
      simpa [quota, selectedQuota, hall k] using h.minimum_le k
    obtain ⟨b, hb, hk⟩ := List.countP_pos_iff.1 hone
    obtain ⟨draw, hdraw, rfl⟩ := List.mem_map.1 hb
    exact ⟨draw, hdraw, of_decide_eq_true hk⟩
  · intro h
    refine ⟨length_picked length, fun b hb => ?_, fun k => ?_⟩
    · exact (mem_charset (mem_of_mem_picked hb)).imp fun k hk => ⟨hk, hall k⟩
    · obtain ⟨draw, hdraw, hk⟩ := h k
      have hpos : 0 < Quota.count byteClass (picked charset length s) k :=
        List.countP_pos_iff.2 ⟨_, List.mem_map_of_mem hdraw, decide_eq_true hk⟩
      simp only [quota, selectedQuota, hall k]
      exact hpos

/-- With some class excluded the command requires the others, and fills up with any. -/
theorem command_some_obeys_iff {d u p : Bool} (hlength : 4 ≤ length ∧ length ≤ 128)
    (hsome : (d && u && p) = false) :
    (command d u p).Obeys length ((command d u p).outcome length s) ↔
      ∀ draw ∈ drawn (length - required d u p) (afterDraws (required d u p) s), ∃ k,
        byteClass (charset.pick draw) = some k ∧ selectedTypes u true d p k = true := by
  have hnat : ∀ b : Bool, (if b = true then (1 : UInt8) else 0).toNat = b.toNat := by decide
  have hone : (1 : UInt8).toNat = 1 := rfl
  have hrequired : d.toNat + p.toNat + 1 + u.toNat ≤ length := by
    have hd := Bool.toNat_le d
    have hu := Bool.toNat_le u
    have hp := Bool.toNat_le p
    omega
  obtain ⟨bs, hperm, hexec⟩ := exec_policy (s := s) (if d = true then 1 else 0)
    (if p = true then 1 else 0) 1 (if u = true then 1 else 0) hlength
    (by simpa only [hnat, hone] using hrequired)
  simp only [hnat, hone] at hperm
  have hselect : (Stateful.exec (selectGenerator length d u p) s).1 =
      .ok (String.ofList (bs.map Char.ofUInt8)) := by
    simp only [selectGenerator, hsome, Bool.false_eq_true, if_false]
    exact hexec
  rw [outcome_command hselect, obeys_ok_iff hlength, meetsQuota_ofList_iff,
    Quota.meets_perm_iff hperm, quota,
    meets_policyBytes_iff hrequired (by funext k; cases k <;> rfl)]
  simp only [picked, List.forall_mem_map]
  rfl

/-- Every request is obeyed when the draws are right, and only then. -/
theorem obeys_iff_drawnRight (r : RandomRequest) (length : Nat) (s : S) :
    r.Obeys length (r.outcome length s) ↔ r.DrawnRight length s := by
  by_cases hlength : 4 ≤ length ∧ length ≤ 128
  · cases r with
    | charTypes uppercase lowercase digits symbols =>
        exact iff_of_true (charTypes_obeys uppercase lowercase digits symbols hlength) trivial
    | policy d p l u => exact iff_of_true (policy_obeys d p l u hlength) trivial
    | command d u p =>
        have hlow : ¬ length < 4 := by omega
        have hhigh : ¬ 128 < length := by omega
        simp only [DrawnRight, hlow, hhigh, false_or]
        cases hflags : d && u && p with
        | true =>
            obtain ⟨⟨rfl, rfl⟩, rfl⟩ : (d = true ∧ u = true) ∧ p = true := by
              simpa using hflags
            exact command_all_obeys_iff hlength
        | false => exact command_some_obeys_iff hlength hflags
  · refine iff_of_true (obeys_of_length hlength) ?_
    cases r with
    | charTypes => trivial
    | policy => trivial
    | command =>
        have hout : length < 4 ∨ 128 < length := by omega
        exact hout.elim Or.inl fun h => Or.inr (Or.inl h)

end RandomRequest

/-! ## A source that draws the same number again and again -/

/-- A source without entropy, and a shuffle that leaves everything in its place. -/
abbrev constantSource (draw : UInt32) : OsRng Unit where
  nextU32 _ := (draw, ())
  shuffle bs _ := (bs, ())
  shuffle_perm bs _ := List.Perm.refl bs

theorem drawn_constantSource (draw : UInt32) (n : Nat) (s : Unit) :
    @drawn Unit (constantSource draw) n s = List.replicate n draw := by
  induction n with
  | zero => rfl
  | succ n ih =>
      rw [List.replicate_succ, ← ih]
      rfl

/-- Draws of `0` are lowercase. -/
theorem command_all_disobeys {length : Nat} (hlength : 4 ≤ length ∧ length ≤ 128) :
    ¬ (RandomRequest.command true true true).Obeys length
      (@RandomRequest.outcome Unit (constantSource 0) length () (.command true true true)) := by
  intro h
  have hall := (@RandomRequest.command_all_obeys_iff Unit (constantSource 0) length () hlength).1 h
  obtain ⟨draw, hdraw, hclass⟩ := hall .digits
  simp only [drawn_constantSource] at hdraw
  obtain rfl := (List.mem_replicate.1 hdraw).2
  exact absurd hclass (by decide +kernel)

/-- Draws of a class that is excluded. -/
theorem command_some_disobeys {length : Nat} (hlength : 4 ≤ length ∧ length ≤ 128)
    {d u p : Bool} (hsome : (d && u && p) = false) (draw : UInt32) (k : CharClass)
    (hdraw : byteClass (charset.pick draw) = some k)
    (hk : selectedTypes u true d p k = false) :
    ¬ (RandomRequest.command d u p).Obeys length
      (@RandomRequest.outcome Unit (constantSource draw) length () (.command d u p)) := by
  intro h
  have hfill :=
    (@RandomRequest.command_some_obeys_iff Unit (constantSource draw) length () d u p hlength
      hsome).1 h draw
  have hpos : length - RandomRequest.required d u p ≠ 0 := by
    have hlt : RandomRequest.required d u p < 4 := by
      revert hsome
      cases d <;> cases u <;> cases p <;> decide
    omega
  simp only [drawn_constantSource] at hfill
  obtain ⟨j, hj, hsel⟩ := hfill (List.mem_replicate.2 ⟨hpos, rfl⟩)
  obtain rfl := Option.some.inj (hj.symm.trans hdraw)
  exact Bool.false_ne_true (hk.symm.trans hsel)

/-- No command of a length in range obeys whatever is drawn. -/
theorem command_obeys_always_iff (length : Nat) (d u p : Bool) :
    (∀ (S : Type) [OsRng S] (s : S),
        (RandomRequest.command d u p).Obeys length
          ((RandomRequest.command d u p).outcome length s)) ↔
      length < 4 ∨ 128 < length := by
  constructor
  · intro h
    by_contra hrange
    have hlength : 4 ≤ length ∧ length ≤ 128 := by omega
    have hsource := fun draw => @h Unit (constantSource draw) ()
    cases d with
    | false =>
        exact command_some_disobeys hlength rfl 48 .digits
          (by decide +kernel) rfl (hsource 48)
    | true =>
        cases u with
        | false =>
            exact command_some_disobeys hlength rfl 24 .uppercase
              (by decide +kernel) rfl (hsource 24)
        | true =>
            cases p with
            | false =>
                exact command_some_disobeys hlength rfl 56 .special
                  (by decide +kernel) rfl (hsource 56)
            | true => exact command_all_disobeys hlength (hsource 0)
  · intro hrange S _ s
    exact RandomRequest.obeys_of_length (by omega)

/-- The command asks for all classes and gets four lowercase characters. -/
theorem command_misses_digits :
    ¬ (RandomRequest.command true true true).Obeys 4
      (@RandomRequest.outcome Unit (constantSource 0) 4 () (.command true true true)) :=
  command_all_disobeys (by decide)

end OakKeyring
