import OakKeyring.Types.Record

/-!
# Reference encodings

SHA-256 and standard base64 as functions on bytes, so that concrete runs of the model can be
evaluated. Nothing in the model depends on them.
-/

namespace OakKeyring

namespace Sha256

/-- The round constants. -/
def k : List Nat :=
  [0x428a2f98, 0x71374491, 0xb5c0fbcf, 0xe9b5dba5, 0x3956c25b, 0x59f111f1, 0x923f82a4,
    0xab1c5ed5, 0xd807aa98, 0x12835b01, 0x243185be, 0x550c7dc3, 0x72be5d74, 0x80deb1fe,
    0x9bdc06a7, 0xc19bf174, 0xe49b69c1, 0xefbe4786, 0x0fc19dc6, 0x240ca1cc, 0x2de92c6f,
    0x4a7484aa, 0x5cb0a9dc, 0x76f988da, 0x983e5152, 0xa831c66d, 0xb00327c8, 0xbf597fc7,
    0xc6e00bf3, 0xd5a79147, 0x06ca6351, 0x14292967, 0x27b70a85, 0x2e1b2138, 0x4d2c6dfc,
    0x53380d13, 0x650a7354, 0x766a0abb, 0x81c2c92e, 0x92722c85, 0xa2bfe8a1, 0xa81a664b,
    0xc24b8b70, 0xc76c51a3, 0xd192e819, 0xd6990624, 0xf40e3585, 0x106aa070, 0x19a4c116,
    0x1e376c08, 0x2748774c, 0x34b0bcb5, 0x391c0cb3, 0x4ed8aa4a, 0x5b9cca4f, 0x682e6ff3,
    0x748f82ee, 0x78a5636f, 0x84c87814, 0x8cc70208, 0x90befffa, 0xa4506ceb, 0xbef9a3f7,
    0xc67178f2]

structure Digest where
  a : Nat
  b : Nat
  c : Nat
  d : Nat
  e : Nat
  f : Nat
  g : Nat
  h : Nat

def init : Digest :=
  ⟨0x6a09e667, 0xbb67ae85, 0x3c6ef372, 0xa54ff53a, 0x510e527f, 0x9b05688c, 0x1f83d9ab,
    0x5be0cd19⟩

def add (x y : Nat) : Nat :=
  (x + y) % 4294967296

def rotr (x n : Nat) : Nat :=
  Nat.lor (x >>> n) ((x <<< (32 - n)) % 4294967296)

/-- One round on a message word and its constant. -/
def round (s : Digest) (w : Nat × Nat) : Digest :=
  let s1 := Nat.xor (Nat.xor (rotr s.e 6) (rotr s.e 11)) (rotr s.e 25)
  let ch := Nat.xor (Nat.land s.e s.f) (Nat.land (Nat.xor s.e 4294967295) s.g)
  let t1 := add (add (add s.h s1) (add ch w.2)) w.1
  let s0 := Nat.xor (Nat.xor (rotr s.a 2) (rotr s.a 13)) (rotr s.a 22)
  let maj := Nat.xor (Nat.xor (Nat.land s.a s.b) (Nat.land s.a s.c)) (Nat.land s.b s.c)
  ⟨add t1 (add s0 maj), s.a, s.b, s.c, add s.d t1, s.e, s.f, s.g⟩

/-- The words still to come, from the last sixteen, newest first. -/
def expand : Nat → List Nat → List Nat
  | 0, ws => ws
  | n + 1, ws =>
      let w2 := ws.getD 1 0
      let w15 := ws.getD 14 0
      let s1 := Nat.xor (Nat.xor (rotr w2 17) (rotr w2 19)) (w2 >>> 10)
      let s0 := Nat.xor (Nat.xor (rotr w15 7) (rotr w15 18)) (w15 >>> 3)
      expand n (add (add (ws.getD 15 0) s0) (add (ws.getD 6 0) s1) :: ws)

def compress (s : Digest) (block : List Nat) : Digest :=
  let t := ((expand 48 block.reverse).reverse.zip k).foldl round s
  ⟨add s.a t.a, add s.b t.b, add s.c t.c, add s.d t.d, add s.e t.e, add s.f t.f, add s.g t.g,
    add s.h t.h⟩

/-- Big-endian words of four bytes. -/
def words : List Nat → List Nat
  | a :: b :: c :: d :: rest => (((a * 256 + b) * 256 + c) * 256 + d) :: words rest
  | _ => []

def blocks : Nat → List Nat → List (List Nat)
  | 0, _ => []
  | n + 1, ws => ws.take 16 :: blocks n (ws.drop 16)

/-- The message, a one bit, zeros, and the length in bits. -/
def pad (bs : List Nat) : List Nat :=
  let zeros := (119 - bs.length % 64) % 64
  let bits := bs.length * 8
  bs ++ 128 :: List.replicate zeros 0 ++ [0, 0, 0, 0, bits / 16777216 % 256,
    bits / 65536 % 256, bits / 256 % 256, bits % 256]

def hexWord (w : Nat) : List Char :=
  [28, 24, 20, 16, 12, 8, 4, 0].map fun n => Uuid.hexChar (Fin.ofNat 16 (w >>> n))

def hash (bs : List Nat) : List Nat :=
  let padded := pad bs
  let s := (blocks (padded.length / 64) (words padded)).foldl compress init
  [s.a, s.b, s.c, s.d, s.e, s.f, s.g, s.h]

def hex (bs : Bytes) : String :=
  String.ofList ((hash (bs.map UInt8.toNat)).flatMap hexWord)

example : hex [116, 101, 115, 116, 32, 100, 97, 116, 97] =
    "916f0027a575074ce72a331777c3478d6513f786a591bd892da1a577bf2335f9" := by
  decide +kernel

end Sha256

namespace Base64

def symbol (n : Nat) : Char :=
  if n < 26 then Char.ofNat (65 + n)
  else if n < 52 then Char.ofNat (71 + n)
  else if n < 62 then Char.ofNat (n - 4)
  else if n = 62 then '+'
  else '/'

def value (c : Char) : Option Nat :=
  if 'A' ≤ c ∧ c ≤ 'Z' then some (c.toNat - 65)
  else if 'a' ≤ c ∧ c ≤ 'z' then some (c.toNat - 71)
  else if '0' ≤ c ∧ c ≤ '9' then some (c.toNat + 4)
  else if c = '+' then some 62
  else if c = '/' then some 63
  else none

def encodeChars : Bytes → List Char
  | a :: b :: c :: rest =>
      let n := (a.toNat * 256 + b.toNat) * 256 + c.toNat
      symbol (n / 262144) :: symbol (n / 4096 % 64) :: symbol (n / 64 % 64) ::
        symbol (n % 64) :: encodeChars rest
  | [a, b] =>
      let n := (a.toNat * 256 + b.toNat) * 4
      [symbol (n / 4096), symbol (n / 64 % 64), symbol (n % 64), '=']
  | [a] =>
      let n := a.toNat * 16
      [symbol (n / 64), symbol (n % 64), '=', '=']
  | [] => []

def encode (bs : Bytes) : String :=
  String.ofList (encodeChars bs)

def decodeChars : List Char → Option Bytes
  | [] => some []
  | [a, b, '=', '='] => do
      let n := (← value a) * 64 + (← value b)
      if n % 16 = 0 then some [UInt8.ofNat (n / 16)] else none
  | [a, b, c, '='] => do
      let n := ((← value a) * 64 + (← value b)) * 64 + (← value c)
      if n % 4 = 0 then some [UInt8.ofNat (n / 1024), UInt8.ofNat (n / 4)] else none
  | a :: b :: c :: d :: rest => do
      let n := (((← value a) * 64 + (← value b)) * 64 + (← value c)) * 64 + (← value d)
      let bs ← decodeChars rest
      some (UInt8.ofNat (n / 65536) :: UInt8.ofNat (n / 256) :: UInt8.ofNat n :: bs)
  | _ => none

def decode (s : String) : Except String Bytes :=
  match decodeChars s.toList with
  | some bs => .ok bs
  | none => .error "Invalid input"

theorem value_symbol {n : Nat} (h : n < 64) : value (symbol n) = some n := by
  have hall : ∀ m : Fin 64, value (symbol m) = some m.val := by
    decide
  exact hall ⟨n, h⟩

theorem symbol_ne_pad {n : Nat} (h : n < 64) : symbol n ≠ '=' := by
  have hall : ∀ m : Fin 64, symbol m ≠ '=' := by
    decide
  exact hall ⟨n, h⟩

/-- Four symbols without padding. -/
theorem decodeChars_quad {a b c d : Nat} {rest : List Char} (ha : a < 64) (hb : b < 64)
    (hc : c < 64) (hd : d < 64) :
    decodeChars (symbol a :: symbol b :: symbol c :: symbol d :: rest) =
      (decodeChars rest).map fun bs =>
        UInt8.ofNat ((((a * 64 + b) * 64 + c) * 64 + d) / 65536) ::
          UInt8.ofNat ((((a * 64 + b) * 64 + c) * 64 + d) / 256) ::
            UInt8.ofNat (((a * 64 + b) * 64 + c) * 64 + d) :: bs := by
  have hpad : symbol d ≠ '=' := symbol_ne_pad hd
  rw [decodeChars]
  · simp only [value_symbol ha, value_symbol hb, value_symbol hc, value_symbol hd,
      Option.bind_eq_bind, Option.bind_some]
    cases decodeChars rest with
    | none => rfl
    | some bs => rfl
  · intro _ hlast _
    exact absurd hlast hpad
  · intro hlast _
    exact absurd hlast hpad

/-- Three symbols and one padding. -/
theorem decodeChars_triple {a b c : Nat} (ha : a < 64) (hb : b < 64) (hc : c < 64)
    (hmod : ((a * 64 + b) * 64 + c) % 4 = 0) :
    decodeChars [symbol a, symbol b, symbol c, '='] =
      some [UInt8.ofNat (((a * 64 + b) * 64 + c) / 1024),
        UInt8.ofNat (((a * 64 + b) * 64 + c) / 4)] := by
  have hpad : symbol c ≠ '=' := symbol_ne_pad hc
  rw [decodeChars]
  · simp only [value_symbol ha, value_symbol hb, value_symbol hc, Option.bind_eq_bind,
      Option.bind_some, if_pos hmod]
  · intro hlast
    exact absurd hlast hpad

theorem ofNat_eq (a : UInt8) {n : Nat} (h : n % 256 = a.toNat) : UInt8.ofNat n = a := by
  apply UInt8.toNat_inj.mp
  rw [UInt8.toNat_ofNat', h]

/-- What is encoded is decoded again. -/
theorem decodeChars_encodeChars (bs : Bytes) : decodeChars (encodeChars bs) = some bs := by
  fun_induction encodeChars bs with
  | case1 a b c rest n ih =>
      -- the four digits of three bytes
      have ha := a.toNat_lt
      have hb := b.toNat_lt
      have hc := c.toNat_lt
      have hn : n = (a.toNat * 256 + b.toNat) * 256 + c.toNat := rfl
      rw [decodeChars_quad (by omega) (by omega) (by omega) (by omega), ih]
      have hjoin : (((n / 262144) * 64 + n / 4096 % 64) * 64 + n / 64 % 64) * 64 + n % 64 = n := by
        omega
      rw [hjoin, Option.map_some, ofNat_eq a (by omega), ofNat_eq b (by omega),
        ofNat_eq c (by omega)]
  | case2 a b n =>
      -- two bytes at the end
      have ha := a.toNat_lt
      have hb := b.toNat_lt
      have hn : n = (a.toNat * 256 + b.toNat) * 4 := rfl
      have hjoin : ((n / 4096) * 64 + n / 64 % 64) * 64 + n % 64 = n := by
        omega
      rw [decodeChars_triple (by omega) (by omega) (by omega) (by omega), hjoin,
        ofNat_eq a (by omega), ofNat_eq b (by omega)]
  | case3 a n =>
      -- one byte at the end
      have ha := a.toNat_lt
      have hn : n = a.toNat * 16 := rfl
      have hjoin : (n / 64) * 64 + n % 64 = n := by
        omega
      have hmod : n % 16 = 0 := by
        omega
      rw [decodeChars]
      simp only [value_symbol (show n / 64 < 64 by omega),
        value_symbol (show n % 64 < 64 by omega), Option.bind_eq_bind, Option.bind_some, hjoin,
        if_pos hmod]
      rw [ofNat_eq a (by omega)]
  | case4 => rfl

theorem decode_encode (bs : Bytes) : decode (encode bs) = .ok bs := by
  unfold decode encode
  rw [String.toList_ofList, decodeChars_encodeChars]

example : decode "dGVzdCBkYXRh" = .ok [116, 101, 115, 116, 32, 100, 97, 116, 97] := by
  decide

end Base64

end OakKeyring
