import OakKeyring.ImportExport.Opdata
import Mathlib.Order.Lattice.Nat

/-!
# What the OpVault decoders accept

No input makes a decoder panic. The inputs that are decoded are described by their parts, and what
the format encodes is decoded to itself, whatever is put in front of it to fill the blocks.
-/

namespace OakKeyring

open Effect

/-! ## Buffers of whole blocks -/

def joinBlocks (blocks : List Block) : Bytes :=
  blocks.flatMap (·.1)

@[simp] theorem joinBlocks_nil : joinBlocks [] = [] := rfl

@[simp] theorem joinBlocks_cons (b : Block) (blocks : List Block) :
    joinBlocks (b :: blocks) = b.1 ++ joinBlocks blocks := rfl

@[simp] theorem length_joinBlocks (blocks : List Block) :
    (joinBlocks blocks).length = 16 * blocks.length := by
  induction blocks with
  | nil => rfl
  | cons b blocks ih =>
      rw [joinBlocks_cons, List.length_append, ih, b.2, List.length_cons]
      omega

/-- The blocks of a buffer that holds so many. -/
def splitBlocks : Nat → Bytes → List Block
  | 0, _ => []
  | n + 1, buf =>
      if h : (buf.take 16).length = 16 then ⟨buf.take 16, h⟩ :: splitBlocks n (buf.drop 16) else []

theorem joinBlocks_splitBlocks {n : Nat} {buf : Bytes} (h : buf.length = 16 * n) :
    joinBlocks (splitBlocks n buf) = buf := by
  induction n generalizing buf with
  | zero => exact (List.length_eq_zero_iff.1 h).symm
  | succ n ih =>
      have hfirst : (buf.take 16).length = 16 := by
        rw [List.length_take]
        omega
      have hrest : (buf.drop 16).length = 16 * n := by
        rw [List.length_drop]
        omega
      rw [splitBlocks, dif_pos hfirst, joinBlocks_cons, ih hrest, List.take_append_drop]

section Decoders

variable [OpVaultCiphers]

/-- The loop over the chunks undoes the chaining. -/
theorem decryptChunks_joinBlocks (key : Sized 32) (previous : Block) (blocks : List Block) :
    decryptChunks key blocks.length previous (joinBlocks blocks) =
      pure (joinBlocks ((aes256 key).chainDecrypt previous blocks)) := by
  induction blocks generalizing previous with
  | nil => rfl
  | cons b blocks ih =>
      have htake : (joinBlocks (b :: blocks)).take 16 = b.1 := List.take_left' b.2
      have hdrop : (joinBlocks (b :: blocks)).drop 16 = joinBlocks blocks := List.drop_left' b.2
      rw [List.length_cons, decryptChunks, htake, hdrop, Checked.sized_eq b.2, pure_bind, ih]
      rfl

theorem decryptBuffer_joinBlocks (key : Sized 32) (iv : Block) (blocks : List Block) :
    decryptBuffer key iv (joinBlocks blocks) =
      pure (joinBlocks ((aes256 key).chainDecrypt iv blocks)) := by
  have hn : (joinBlocks blocks).length / 16 = blocks.length := by
    rw [length_joinBlocks]
    omega
  rw [decryptBuffer, hn, decryptChunks_joinBlocks]

/-- Decryption keeps the length of whole blocks. -/
theorem exists_decryptBuffer (key : Sized 32) (iv : Block) {buf : Bytes} (h : 16 ∣ buf.length) :
    ∃ out, out.length = buf.length ∧ decryptBuffer key iv buf = pure out := by
  obtain ⟨n, hn⟩ := h
  have hjoin := joinBlocks_splitBlocks hn
  refine ⟨joinBlocks ((aes256 key).chainDecrypt iv (splitBlocks n buf)), ?_, ?_⟩
  · rw [length_joinBlocks, BlockCipher.length_chainDecrypt, ← length_joinBlocks, hjoin]
  · rw [← decryptBuffer_joinBlocks, hjoin]

omit [OpVaultCiphers] in
theorem newFromSlices_eq {name : String} {iv : Bytes} (h : iv.length = 16) :
    newFromSlices name iv = pure ⟨iv, h⟩ :=
  dif_pos h

omit [OpVaultCiphers] in
theorem u64FromLeBytes_eq {bs : Bytes} (h : bs.length = 8) :
    u64FromLeBytes bs = pure (Endian.ofLittle bs) :=
  if_pos h

/-! ## What is accepted -/

omit [OpVaultCiphers] in
theorem length_part {data : Bytes} (start : Nat) {stop : Nat} (h : stop ≤ data.length) :
    ((data.take stop).drop start).length = stop - start := by
  rw [List.length_drop, List.length_take, Nat.min_eq_left h]

/-- The length field. -/
def plainLength (data : Bytes) : Nat :=
  Endian.ofLittle ((data.take 16).drop 8)

def signedPart (data : Bytes) : Bytes :=
  data.take (data.length - 32)

def cipherPart (data : Bytes) : Bytes :=
  (data.take (data.length - 32)).drop 32

omit [OpVaultCiphers] in
theorem length_cipherPart (data : Bytes) : (cipherPart data).length = data.length - 64 := by
  rw [cipherPart, length_part 32 (Nat.sub_le ..)]
  omega

/-- The conditions of the format. -/
structure OpdataValid (data : Bytes) (macKey : Sized 32) : Prop where
  long : 80 ≤ data.length
  signed : data.drop (data.length - 32) = (hmacSha256 macKey (signedPart data)).1
  header : data.take 8 = HEADER
  aligned : 16 ∣ data.length - 64
  fits : plainLength data ≤ data.length - 64

/-- No slice of a text of sufficient length is out of range. -/
theorem decryptOpdata01_eq {data : Bytes} (h : 80 ≤ data.length) (key macKey : Sized 32) :
    decryptOpdata01 data key macKey = (do
      verifyHmac (signedPart data) (data.drop (data.length - 32)) macKey
      if data.take 8 ≠ HEADER then
        throw (.DecryptionFailed "opdata01: invalid header")
      if ¬ 16 ∣ (cipherPart data).length then
        throw (.DecryptionFailed "opdata01: ciphertext not block-aligned")
      if (cipherPart data).length < plainLength data then
        throw (.DecryptionFailed "opdata01: plaintext length exceeds ciphertext")
      let buf ← decryptBuffer key
        ⟨(data.take 32).drop 16, length_part 16 (by omega)⟩ (cipherPart data)
      let paddingLen ← Checked.sub buf.length (plainLength data)
      Checked.slice buf paddingLen buf.length) := by
  -- the slices of the crate are those of the four parts
  have hlong : ¬ data.length < MIN_LEN := by
    simp only [MIN_LEN]
    omega
  have hsigned : data.length - 32 ≤ data.length := Nat.sub_le ..
  have htext : (data.take (data.length - 32)).drop 0 = signedPart data := List.drop_zero
  have hmac : (data.take data.length).drop (data.length - 32) = data.drop (data.length - 32) := by
    rw [List.take_length]
  have hheader : (data.take 8).drop 0 = data.take 8 := List.drop_zero
  simp only [decryptOpdata01, hlong, if_false, Checked.sub_eq (show 32 ≤ data.length by omega),
    Checked.slice_eq data ⟨Nat.zero_le _, hsigned⟩,
    Checked.slice_eq data ⟨hsigned, le_rfl⟩,
    Checked.slice_eq data (show 0 ≤ 8 ∧ 8 ≤ data.length by omega),
    Checked.slice_eq data (show 8 ≤ 16 ∧ 16 ≤ data.length by omega),
    Checked.slice_eq data (show 16 ≤ 32 ∧ 32 ≤ data.length by omega),
    Checked.slice_eq data (show 32 ≤ data.length - 32 ∧ _ by omega),
    pure_bind, htext, hmac, hheader,
    u64FromLeBytes_eq (length_part 8 (show 16 ≤ data.length by omega)),
    newFromSlices_eq (length_part 16 (show 32 ≤ data.length by omega))]
  rfl

theorem exec_decryptOpdata01 (data : Bytes) (key macKey : Sized 32) :
    (OpdataValid data macKey ∧
        ∃ plain, Checked.exec (decryptOpdata01 data key macKey) = some (.ok plain)) ∨
      (¬ OpdataValid data macKey ∧
        ∃ e, Checked.exec (decryptOpdata01 data key macKey) = some (.error e)) := by
  -- each check of the crate refuses data that are not of the form
  by_cases hlong : 80 ≤ data.length
  case neg =>
    refine Or.inr ⟨fun h => hlong h.long, .DecryptionFailed "opdata01: data too short", ?_⟩
    have hshort : data.length < MIN_LEN := by
      simp only [MIN_LEN]
      omega
    simp [decryptOpdata01, hshort]
  rw [decryptOpdata01_eq hlong]
  by_cases hsigned : data.drop (data.length - 32) = (hmacSha256 macKey (signedPart data)).1
  case neg =>
    exact Or.inr ⟨fun h => hsigned h.signed, .InvalidPassword, by simp [verifyHmac, hsigned]⟩
  by_cases hheader : data.take 8 = HEADER
  case neg =>
    exact Or.inr ⟨fun h => hheader h.header, .DecryptionFailed "opdata01: invalid header",
      by simp [verifyHmac, hsigned, hheader]⟩
  by_cases haligned : 16 ∣ data.length - 64
  case neg =>
    exact Or.inr ⟨fun h => haligned h.aligned,
      .DecryptionFailed "opdata01: ciphertext not block-aligned",
      by simp [verifyHmac, hsigned, hheader, length_cipherPart, haligned]⟩
  by_cases hfits : plainLength data ≤ data.length - 64
  case neg =>
    exact Or.inr ⟨fun h => hfits h.fits,
      .DecryptionFailed "opdata01: plaintext length exceeds ciphertext",
      by simp [verifyHmac, hsigned, hheader, length_cipherPart, haligned, Nat.lt_of_not_le hfits]⟩
  -- the buffer is as long as the text, so the padding can be cut off
  have hcipher := length_cipherPart data
  obtain ⟨buf, hbuf, hdecrypt⟩ := exists_decryptBuffer key
    ⟨(data.take 32).drop 16, length_part 16 (by omega)⟩ (hcipher ▸ haligned)
  have hpadding : plainLength data ≤ buf.length := by omega
  refine Or.inl ⟨⟨hlong, hsigned, hheader, haligned, hfits⟩,
    buf.drop (buf.length - plainLength data), ?_⟩
  simp [verifyHmac, hsigned, hheader, hcipher, haligned, Nat.not_lt.2 hfits, hdecrypt,
    Checked.sub_eq hpadding, Checked.slice_eq]

/-! ## The key of an item -/

structure ItemKeyValid (kData : Bytes) (master : KeyPair) : Prop where
  length_eq : kData.length = 112
  signed : kData.drop 80 = (hmacSha256 master.mac (kData.take 80)).1

theorem decryptItemKey_eq {kData : Bytes} (h : kData.length = 112) (master : KeyPair) :
    decryptItemKey kData master = (do
      verifyHmac (kData.take 80) (kData.drop 80) master.mac
      let buf ← decryptBuffer master.enc ⟨kData.take 16, by simp [h]⟩ ((kData.take 80).drop 16)
      let enc ← Checked.sized 32 (← Checked.slice buf 0 32)
      let mac ← Checked.sized 32 (← Checked.slice buf 32 64)
      return { enc, mac }) := by
  have hsigned : (kData.take 80).drop 0 = kData.take 80 := List.drop_zero
  have hmac : (kData.take 112).drop 80 = kData.drop 80 := by
    rw [← h, List.take_length]
  have hiv : (kData.take 16).drop 0 = kData.take 16 := List.drop_zero
  simp only [decryptItemKey, h, ne_eq, not_true, if_false,
    Checked.slice_eq kData (show 0 ≤ 80 ∧ 80 ≤ kData.length by omega),
    Checked.slice_eq kData (show 80 ≤ 112 ∧ 112 ≤ kData.length by omega),
    Checked.slice_eq kData (show 0 ≤ 16 ∧ 16 ≤ kData.length by omega),
    Checked.slice_eq kData (show 16 ≤ 80 ∧ 80 ≤ kData.length by omega),
    pure_bind, hsigned, hmac, hiv, newFromSlices_eq (show (kData.take 16).length = 16 by simp [h])]

theorem exec_decryptItemKey (kData : Bytes) (master : KeyPair) :
    (ItemKeyValid kData master ∧
        ∃ pair, Checked.exec (decryptItemKey kData master) = some (.ok pair)) ∨
      (¬ ItemKeyValid kData master ∧
        ∃ e, Checked.exec (decryptItemKey kData master) = some (.error e)) := by
  by_cases hlength : kData.length = 112
  case neg =>
    exact Or.inr ⟨fun h => hlength h.length_eq,
      .DecryptionFailed s!"item key: expected 112 bytes, got {kData.length}",
      by simp [decryptItemKey, hlength]⟩
  rw [decryptItemKey_eq hlength]
  by_cases hsigned : kData.drop 80 = (hmacSha256 master.mac (kData.take 80)).1
  case neg =>
    exact Or.inr ⟨fun h => hsigned h.signed, .InvalidPassword, by simp [verifyHmac, hsigned]⟩
  have hcipher : ((kData.take 80).drop 16).length = 64 := length_part 16 (by omega)
  obtain ⟨buf, hbuf, hdecrypt⟩ := exists_decryptBuffer master.enc
    ⟨kData.take 16, by simp [hlength]⟩ (hcipher ▸ (by decide : 16 ∣ 64))
  have h64 : buf.length = 64 := hbuf.trans hcipher
  have henc : ((buf.take 32).drop 0).length = 32 := length_part 0 (by omega)
  have hmac : ((buf.take 64).drop 32).length = 32 := length_part 32 (by omega)
  refine Or.inl ⟨⟨hlength, hsigned⟩, ⟨⟨_, henc⟩, ⟨_, hmac⟩⟩, ?_⟩
  rw [hdecrypt, pure_bind, Checked.slice_eq _ (by omega), pure_bind, Checked.sized_eq henc,
    pure_bind, Checked.slice_eq _ (by omega), pure_bind, Checked.sized_eq hmac]
  simp [verifyHmac, hsigned]

/-! ## Round trip -/

/-- A plaintext with what fills its blocks from the front. -/
structure FrontPadded where
  padding : Bytes
  plain : Bytes
  aligned : 16 ∣ (padding ++ plain).length
  padded_ne : padding ++ plain ≠ []
  plain_lt : plain.length < 2 ^ 64

/-- The rule of the format: one to sixteen random bytes, so that an aligned plaintext gets a block
of its own. -/
def FrontPadded.ofPlain (random : Block) (plain : Bytes) (h : plain.length < 2 ^ 64) :
    FrontPadded where
  padding := random.1.take (16 - plain.length % 16)
  plain := plain
  aligned := by
    rw [List.length_append, List.length_take, random.2]
    omega
  padded_ne := by
    have hpos : 0 < (random.1.take (16 - plain.length % 16)).length := by
      rw [List.length_take, random.2]
      omega
    intro hnil
    simp [(List.append_eq_nil_iff.1 hnil).1] at hpos
  plain_lt := h

def FrontPadded.blocks (x : FrontPadded) : List Block :=
  splitBlocks ((x.padding ++ x.plain).length / 16) (x.padding ++ x.plain)

omit [OpVaultCiphers] in
theorem FrontPadded.joinBlocks_blocks (x : FrontPadded) :
    joinBlocks x.blocks = x.padding ++ x.plain :=
  joinBlocks_splitBlocks (Nat.mul_div_cancel' x.aligned).symm

/-- What is signed of an `opdata01` text. -/
def signedOpdata01 (x : FrontPadded) (iv : Block) (key : Sized 32) : Bytes :=
  HEADER ++ Endian.little 8 x.plain.length ++ iv.1 ++
    joinBlocks ((aes256 key).chainEncrypt iv x.blocks)

def encodeOpdata01 (x : FrontPadded) (iv : Block) (key macKey : Sized 32) : Bytes :=
  signedOpdata01 x iv key ++ (hmacSha256 macKey (signedOpdata01 x iv key)).1

omit [OpVaultCiphers] in
/-- A part in the middle is found at its position. -/
theorem part_append {xs ys zs : Bytes} {start stop : Nat} (hstart : xs.length = start)
    (hstop : start + ys.length = stop) : ((xs ++ ys ++ zs).take stop).drop start = ys := by
  have htake : (xs ++ ys ++ zs).take stop = xs ++ ys :=
    List.take_left' (by rw [List.length_append, hstart, hstop])
  rw [htake, List.drop_left' hstart]

/-- The parts of an encoded text. -/
theorem parts_encodeOpdata01 (x : FrontPadded) (iv : Block) (key macKey : Sized 32) :
    let data := encodeOpdata01 x iv key macKey
    data.length = 64 + (x.padding ++ x.plain).length ∧
      signedPart data = signedOpdata01 x iv key ∧
      data.drop (data.length - 32) = (hmacSha256 macKey (signedOpdata01 x iv key)).1 ∧
      data.take 8 = HEADER ∧ plainLength data = x.plain.length ∧
      (data.take 32).drop 16 = iv.1 ∧
      cipherPart data = joinBlocks ((aes256 key).chainEncrypt iv x.blocks) := by
  intro data
  -- the parts have the lengths that the decoder expects
  have hheader : HEADER.length = 8 := rfl
  have hiv : iv.1.length = 16 := iv.2
  have hmac : ((hmacSha256 macKey (signedOpdata01 x iv key)).1).length = 32 :=
    (hmacSha256 macKey (signedOpdata01 x iv key)).2
  have hjoin : (joinBlocks ((aes256 key).chainEncrypt iv x.blocks)).length =
      (x.padding ++ x.plain).length := by
    rw [length_joinBlocks, BlockCipher.length_chainEncrypt, ← length_joinBlocks,
      x.joinBlocks_blocks]
  have hsigned : (signedOpdata01 x iv key).length = 32 + (x.padding ++ x.plain).length := by
    simp only [signedOpdata01, List.length_append, hheader, Endian.length_little, hiv, hjoin]
  have hlength : data.length = 64 + (x.padding ++ x.plain).length := by
    simp only [data, encodeOpdata01, List.length_append, hmac, hsigned]
    omega
  have hsplit : data.length - 32 = (signedOpdata01 x iv key).length := by omega
  refine ⟨hlength, ?_, ?_, ?_, ?_, ?_, ?_⟩
  · rw [signedPart, hsplit]
    exact List.take_left
  · rw [hsplit]
    exact List.drop_left
  · simp only [data, encodeOpdata01, signedOpdata01, List.append_assoc]
    exact List.take_left' hheader
  · have hpart : (data.take 16).drop 8 = Endian.little 8 x.plain.length := by
      simp only [data, encodeOpdata01, signedOpdata01, List.append_assoc]
      rw [← List.append_assoc]
      exact part_append hheader (by rw [Endian.length_little])
    rw [plainLength, hpart, Endian.ofLittle_little (by simpa using x.plain_lt)]
  · simp only [data, encodeOpdata01, signedOpdata01, List.append_assoc]
    rw [← List.append_assoc HEADER, ← List.append_assoc (HEADER ++ _)]
    exact part_append (by simp [hheader]) (by rw [hiv])
  · rw [cipherPart, hsplit]
    have htake : data.take (signedOpdata01 x iv key).length = signedOpdata01 x iv key :=
      List.take_left
    rw [htake]
    exact List.drop_left' (by simp [hheader, hiv])

theorem exec_decrypt_encodeOpdata01 (x : FrontPadded) (iv : Block) (key macKey : Sized 32) :
    Checked.exec (decryptOpdata01 (encodeOpdata01 x iv key macKey) key macKey) =
      some (.ok x.plain) := by
  obtain ⟨hlength, hsigned, hmac, hheader, hplain, hiv, hcipher⟩ :=
    parts_encodeOpdata01 x iv key macKey
  obtain ⟨n, hn⟩ := x.aligned
  have hpos : 0 < (x.padding ++ x.plain).length := List.length_pos_of_ne_nil x.padded_ne
  have hbuffer : decryptBuffer key iv (joinBlocks ((aes256 key).chainEncrypt iv x.blocks)) =
      pure (x.padding ++ x.plain) := by
    rw [decryptBuffer_joinBlocks, BlockCipher.chainDecrypt_chainEncrypt, x.joinBlocks_blocks]
  have hcipherLength : (joinBlocks ((aes256 key).chainEncrypt iv x.blocks)).length =
      (x.padding ++ x.plain).length := by
    rw [← hcipher, length_cipherPart, hlength]
    omega
  have hpadding : x.plain.length ≤ (x.padding ++ x.plain).length := by
    rw [List.length_append]
    exact Nat.le_add_left ..
  have hdrop : (x.padding ++ x.plain).drop ((x.padding ++ x.plain).length - x.plain.length) =
      x.plain := by
    rw [List.length_append, Nat.add_sub_cancel]
    exact List.drop_left
  rw [decryptOpdata01_eq (by omega)]
  simp only [hsigned, hmac, hheader, hplain, hiv, hcipher, verifyHmac, if_true, pure_bind, ne_eq,
    not_true, if_false, hcipherLength, x.aligned, Nat.not_lt.2 hpadding, hbuffer,
    Checked.sub_eq hpadding, Checked.slice_eq (x.padding ++ x.plain) ⟨Nat.sub_le .., le_rfl⟩,
    List.take_length, hdrop]
  rfl

/-- The decoders never panic, accept what the format says and undo its encoding. -/
theorem opdata_decoders :
    (∀ (data : Bytes) (key macKey : Sized 32),
      Checked.exec (decryptOpdata01 data key macKey) ≠ none ∧
        ((∃ plain, Checked.exec (decryptOpdata01 data key macKey) = some (.ok plain)) ↔
          OpdataValid data macKey)) ∧
    (∀ (kData : Bytes) (master : KeyPair),
      Checked.exec (decryptItemKey kData master) ≠ none ∧
        ((∃ pair, Checked.exec (decryptItemKey kData master) = some (.ok pair)) ↔
          ItemKeyValid kData master)) ∧
    ∀ (x : FrontPadded) (iv : Block) (key macKey : Sized 32),
      Checked.exec (decryptOpdata01 (encodeOpdata01 x iv key macKey) key macKey) =
        some (.ok x.plain) := by
  refine ⟨fun data key macKey => ?_, fun kData master => ?_, exec_decrypt_encodeOpdata01⟩
  · rcases exec_decryptOpdata01 data key macKey with ⟨hvalid, plain, h⟩ | ⟨hvalid, e, h⟩
    · simp [h, hvalid]
    · simp [h, hvalid]
  · rcases exec_decryptItemKey kData master with ⟨hvalid, pair, h⟩ | ⟨hvalid, e, h⟩
    · simp [h, hvalid]
    · simp [h, hvalid]

end Decoders

end OakKeyring
