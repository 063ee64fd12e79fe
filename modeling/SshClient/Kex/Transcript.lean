import SshClient.Kex.Formats
import SshClient.Number.BigEndian
import Mathlib.Data.List.TakeWhile
import Mathlib.Data.List.Nodup

/-!
# What is hashed

The exchange hash and the derived keys are digests of concatenations of variable-length
fields. Nothing is assumed about the digest here. The statements are about the bytes that
are passed to it: they determine the fields, keys of different letters are digests of
different bytes, and neither kind of input is ever one of the other kind.
-/

namespace SshClient.Kex

open Control

/-! ### Multiple-precision integers -/

theorem dropWhile_positiveMagnitude (value : Bytes) :
    (positiveMagnitude value).dropWhile (· = 0) = value.dropWhile (· = 0) := by
  unfold positiveMagnitude
  cases hstrip : value.dropWhile (· = 0) with
  | nil => rfl
  | cons byte rest =>
      have hbyte : byte ≠ 0 := by
        have := List.head?_dropWhile_not (fun b : UInt8 => decide (b = 0)) value
        simpa [hstrip] using this
      simp only
      split <;> simp [hbyte]

/-- Leading zeros are the only thing that the encoding forgets. -/
theorem positiveMagnitude_inj {v v' : Bytes} (hlen : v.length = v'.length)
    (h : positiveMagnitude v = positiveMagnitude v') : v = v' := by
  have hstrip : v.dropWhile (· = 0) = v'.dropWhile (· = 0) := by
    rw [← dropWhile_positiveMagnitude v, h, dropWhile_positiveMagnitude v']
  have padded : ∀ u : Bytes, u =
      List.replicate (u.length - (u.dropWhile (· = 0)).length) 0 ++ u.dropWhile (· = 0) := by
    intro u
    have hzeros : u.takeWhile (· = 0) = List.replicate (u.takeWhile (· = 0)).length 0 := by
      rw [List.eq_replicate_iff]
      refine ⟨rfl, fun b hb => ?_⟩
      simpa using List.mem_takeWhile_imp hb
    have hsplit := List.takeWhile_append_dropWhile (p := fun b : UInt8 => decide (b = 0)) (l := u)
    have hcount := congrArg List.length hsplit
    rw [List.length_append] at hcount
    have hn : u.length - (u.dropWhile (· = 0)).length = (u.takeWhile (· = 0)).length := by omega
    rw [hn, ← hzeros, hsplit]
  rw [padded v, padded v', hstrip, hlen]

theorem positiveMagnitude_length_le (value : Bytes) :
    (positiveMagnitude value).length ≤ value.length + 1 := by
  have hle := (List.dropWhile_suffix (l := value) (· = 0)).length_le
  unfold positiveMagnitude
  split
  · simp
  · rename_i byte rest hstrip
    rw [hstrip] at hle
    split <;> simp only [List.length_cons] at hle ⊢ <;> omega

theorem appendPositiveMpint_ok {destination result : Bytes} {value : Fixed 32} :
    appendPositiveMpint destination value = .ok result ↔
      result = destination ++ encodeString (positiveMagnitude value.val) := by
  have hlen := positiveMagnitude_length_le value.val
  rw [value.property] at hlen
  rw [appendPositiveMpint, appendString_ok]
  exact ⟨fun h => h.2, fun h => ⟨by omega, h⟩⟩

theorem top_bit (byte : UInt8) : byte &&& 0x80 ≠ 0 ↔ 128 ≤ byte.toNat := by
  have hand : (byte &&& 0x80).toNat = byte.toNat &&& 2 ^ 7 := rfl
  rw [ne_eq, ← UInt8.toNat_inj, hand, Nat.and_two_pow, Nat.testBit_eq_decide_div_mod_eq]
  have hlt := byte.toNat_lt
  simp
  omega

/-- The magnitude has the value of the array, and it does not have a byte too many. -/
theorem signed_positiveMagnitude (value : Bytes) :
    Number.signed (positiveMagnitude value) = Number.unsigned value ∧
      (positiveMagnitude value = [] ∨
        256 ^ ((positiveMagnitude value).length - 1) ≤ 2 * Number.unsigned value) := by
  rw [← Number.unsigned_dropWhile_zero]
  unfold positiveMagnitude
  cases hstrip : value.dropWhile (· = 0) with
  | nil => exact ⟨rfl, .inl rfl⟩
  | cons byte rest =>
      have hbyte : 1 ≤ byte.toNat := by
        have hne : byte ≠ 0 := by
          have := List.head?_dropWhile_not (fun b : UInt8 => decide (b = 0)) value
          simpa [hstrip] using this
        have := UInt8.toNat_inj.not.mpr hne
        rw [UInt8.toNat_zero] at this
        omega
      have hvalue := Number.unsigned_cons byte rest
      simp only
      split
      next htop =>
        rw [top_bit] at htop
        have hzero := Number.unsigned_cons 0 (byte :: rest)
        refine ⟨Number.signed_eq_natCast.mpr ⟨rfl, by rw [hzero]; simp⟩, .inr ?_⟩
        calc 256 ^ ((0 :: byte :: rest).length - 1) = 2 * (128 * 256 ^ rest.length) := by
              simp only [List.length_cons, Nat.add_sub_cancel, Nat.pow_succ]
              ring
          _ ≤ 2 * Number.unsigned (byte :: rest) := by
              have := Nat.mul_le_mul_right (256 ^ rest.length) htop
              omega
      next htop =>
        rw [top_bit, Nat.not_le] at htop
        refine ⟨Number.signed_eq_natCast.mpr ⟨by simpa [Number.negative] using htop, rfl⟩, .inr ?_⟩
        have := Nat.mul_le_mul_right (256 ^ rest.length) hbyte
        simp only [List.length_cons, Nat.add_sub_cancel]
        omega

/-- The encoding is appended to the destination and is the canonical one: the shortest
string in two's complement for the value of the array. -/
theorem appendPositiveMpint_canonical (destination : Bytes) (value : Fixed 32) :
    ∃ magnitude : Bytes,
      appendPositiveMpint destination value = .ok (destination ++ encodeString magnitude) ∧
      Number.signed magnitude = Number.unsigned value.val ∧
      (∀ other, Number.signed other = Number.unsigned value.val →
        magnitude.length ≤ other.length ∧ (other.length = magnitude.length → other = magnitude)) ∧
      (magnitude = [] ↔ Number.unsigned value.val = 0) ∧
      (∀ rest, magnitude = 0 :: rest → ∃ byte later, rest = byte :: later ∧ 128 ≤ byte.toNat) ∧
      magnitude.length ≤ 33 := by
  obtain ⟨hvalue, hfull⟩ := signed_positiveMagnitude value.val
  refine ⟨positiveMagnitude value.val, appendPositiveMpint_ok.mpr rfl, hvalue,
    fun other hother => Number.shortest hvalue hfull hother, ?_, ?_, ?_⟩
  · constructor
    · intro hnil
      rw [hnil] at hvalue
      exact (Number.signed_eq_natCast.mp hvalue).2.symm
    · intro hzero
      obtain hnil | hle := hfull
      · exact hnil
      · have hpos : 0 < 256 ^ ((positiveMagnitude value.val).length - 1) := Nat.pow_pos (by decide)
        omega
  · intro rest hrest
    unfold positiveMagnitude at hrest
    cases hstrip : value.val.dropWhile (· = 0) with
    | nil => simp [hstrip] at hrest
    | cons byte later =>
        simp only [hstrip] at hrest
        split at hrest
        next htop =>
          cases hrest
          exact ⟨byte, later, rfl, (top_bit byte).mp htop⟩
        next =>
          cases hrest
          have := List.head?_dropWhile_not (fun b : UInt8 => decide (b = 0)) value.val
          simp [hstrip] at this
  · have hlen := positiveMagnitude_length_le value.val
    rwa [value.property] at hlen

theorem positiveMagnitude_fixed_lt (value : Fixed 32) :
    (positiveMagnitude value.val).length < 4294967296 := by
  have hlen := positiveMagnitude_length_le value.val
  rw [value.property] at hlen
  omega

/-! ### The exchange hash -/

/-- The fields of the transcript in order. -/
def exchangeFields (clientIdentification serverIdentification : Bytes)
    (clientKexinit serverKexinit : KexInit) (curveState : Curve25519State)
    (ecdhReply : EcdhReply) : List Bytes :=
  [clientIdentification, serverIdentification, clientKexinit.rawPayload,
    serverKexinit.rawPayload, ecdhReply.serverHostKey, curveState.clientPublicKey.val,
    ecdhReply.serverPublicKey.val, positiveMagnitude curveState.sharedSecret.val]

section Exchange

variable {ci si ci' si' bytes : Bytes} {ck sk ck' sk' : KexInit}
variable {cs cs' : Curve25519State} {er er' : EcdhReply}

theorem exchangeTranscript_ok :
    exchangeTranscript ci si ck sk cs er = .ok bytes ↔
      (∀ field ∈ exchangeFields ci si ck sk cs er, field.length < 4294967296) ∧
        bytes = (exchangeFields ci si ck sk cs er).flatMap encodeString := by
  have hmagnitude := positiveMagnitude_fixed_lt cs.sharedSecret
  simp only [exchangeTranscript, bind_eq_ok, appendString_ok, appendPositiveMpint_ok,
    exchangeFields, List.forall_mem_cons, List.flatMap_cons, List.flatMap_nil]
  simp only [List.nil_append, List.append_nil, hmagnitude]
  constructor
  · rintro ⟨_, ⟨h1, rfl⟩, _, ⟨h2, rfl⟩, _, ⟨h3, rfl⟩, _, ⟨h4, rfl⟩, _, ⟨h5, rfl⟩, _, ⟨h6, rfl⟩,
      _, ⟨h7, rfl⟩, rfl⟩
    exact ⟨⟨h1, h2, h3, h4, h5, h6, h7, trivial, by simp⟩, by simp only [List.append_assoc]⟩
  · rintro ⟨⟨h1, h2, h3, h4, h5, h6, h7, -, -⟩, rfl⟩
    exact ⟨_, ⟨h1, rfl⟩, _, ⟨h2, rfl⟩, _, ⟨h3, rfl⟩, _, ⟨h4, rfl⟩, _, ⟨h5, rfl⟩, _, ⟨h6, rfl⟩, _,
      ⟨h7, rfl⟩, by simp only [List.append_assoc]⟩

/-- The transcript determines everything that goes into it. -/
theorem exchangeTranscript_inj
    (h : exchangeTranscript ci si ck sk cs er = .ok bytes)
    (h' : exchangeTranscript ci' si' ck' sk' cs' er' = .ok bytes) :
    ci = ci' ∧ si = si' ∧ ck.rawPayload = ck'.rawPayload ∧ sk.rawPayload = sk'.rawPayload ∧
      er.serverHostKey = er'.serverHostKey ∧ cs.clientPublicKey = cs'.clientPublicKey ∧
      er.serverPublicKey = er'.serverPublicKey ∧ cs.sharedSecret = cs'.sharedSecret := by
  obtain ⟨hfields, rfl⟩ := exchangeTranscript_ok.mp h
  obtain ⟨hfields', hbytes⟩ := exchangeTranscript_ok.mp h'
  have hcount : (exchangeFields ci si ck sk cs er).length =
      (exchangeFields ci' si' ck' sk' cs' er').length := rfl
  have hall := (flatMap_encodeString_inj hcount hfields hfields'
    (congrArg (fun bytes => bytes ++ []) hbytes)).1
  simp only [exchangeFields, List.cons.injEq, and_true] at hall
  obtain ⟨h1, h2, h3, h4, h5, h6, h7, h8⟩ := hall
  have hlen : cs.sharedSecret.val.length = cs'.sharedSecret.val.length := by
    rw [cs.sharedSecret.property, cs'.sharedSecret.property]
  exact ⟨h1, h2, h3, h4, h5, Subtype.ext h6, Subtype.ext h7,
    Subtype.ext (positiveMagnitude_inj hlen h8)⟩

/-- The bytes that `calculateExchangeHash` hands to the hash: whatever the libraries are, the
result is the hash of these. -/
def Hands (clientIdentification serverIdentification : Bytes)
    (clientKexinit serverKexinit : KexInit)
    (curveState : Curve25519State) (ecdhReply : EcdhReply) (bytes : Bytes) : Prop :=
  ∀ crypto : Crypto, calculateExchangeHash crypto clientIdentification serverIdentification
    clientKexinit serverKexinit curveState ecdhReply = .ok (crypto.hashSha256 bytes)

/-- A library that does nothing but hash. -/
def hashing (hash : Bytes → Fixed 32) : Crypto where
  hashSha256 := hash
  authHmacsha256 _ _ := none
  scalarmultCurve25519Base _ := none
  scalarmultCurve25519 _ _ := none
  signVerifyDetached _ _ _ := false
  bin2base64 _ := none
  bin2base64NoPadding _ := []
  contextNew _ := false
  cipherInit _ _ _ := false
  encryptUpdate _ _ := none
  decryptUpdate _ _ := none

/-- What is handed to the hash is the transcript. A hash that knows the one from all other bytes
would tell. -/
theorem hands_iff :
    Hands ci si ck sk cs er bytes ↔ exchangeTranscript ci si ck sk cs er = .ok bytes := by
  constructor
  · intro h
    let ones : Fixed 32 := ⟨List.replicate 32 1, rfl⟩
    have htold := h (hashing fun other => if other = bytes then Fixed.zero 32 else ones)
    obtain ⟨transcript, htranscript, hhash⟩ := bind_eq_ok.mp htold
    rw [htranscript]
    by_contra hother
    have hne : transcript ≠ bytes := fun hsame => hother (congrArg Except.ok hsame)
    simp only [hashing, if_neg hne, if_pos] at hhash
    exact absurd (Except.ok.inj hhash) (by decide)
  · intro h crypto
    rw [calculateExchangeHash, h]
    rfl

/-- What is handed to the hash is the transcript, and it determines everything that goes into
it. -/
theorem exchangeTranscript_injective :
    (∀ bytes, Hands ci si ck sk cs er bytes ↔ exchangeTranscript ci si ck sk cs er = .ok bytes) ∧
    ∀ bytes, Hands ci si ck sk cs er bytes → Hands ci' si' ck' sk' cs' er' bytes →
      ci = ci' ∧ si = si' ∧ ck.rawPayload = ck'.rawPayload ∧ sk.rawPayload = sk'.rawPayload ∧
        er.serverHostKey = er'.serverHostKey ∧ cs.clientPublicKey = cs'.clientPublicKey ∧
        er.serverPublicKey = er'.serverPublicKey ∧ cs.sharedSecret = cs'.sharedSecret :=
  ⟨fun _ => hands_iff, fun _ h h' => exchangeTranscript_inj (hands_iff.mp h) (hands_iff.mp h')⟩

/-- A state with a given private key, which is not part of the transcript. -/
def sampleState (clientPrivateKey : Fixed 32) : Curve25519State where
  clientPrivateKey := clientPrivateKey
  clientPublicKey := Fixed.zero 32

def sampleHands (state : Curve25519State) (bytes : Bytes) : Prop :=
  Hands (ascii "SSH-2.0-ConorSSH_0.1") (ascii "SSH-2.0-OpenSSH_9.6") (clientOffer (Fixed.zero 16))
    (clientOffer (Fixed.zero 16)) state ⟨[1], Fixed.zero 32, [2]⟩ bytes

theorem exchangeTranscript_injective_sample :
    ∃ bytes, sampleHands (sampleState (Fixed.zero 32)) bytes ∧
      sampleHands (sampleState ⟨List.replicate 32 1, rfl⟩) bytes ∧
      (sampleState (Fixed.zero 32)).sharedSecret =
        (sampleState ⟨List.replicate 32 1, rfl⟩).sharedSecret := by
  have hhands : sampleHands (sampleState (Fixed.zero 32)) _ := hands_iff.mpr rfl
  have hhands' : sampleHands (sampleState ⟨List.replicate 32 1, rfl⟩) _ := hands_iff.mpr rfl
  exact ⟨_, hhands, hhands',
    (exchangeTranscript_injective.2 _ hhands hhands').2.2.2.2.2.2.2⟩

end Exchange

/-! ### Derived keys -/

theorem derivationInput_ok {sharedSecret exchangeHash sessionId : Fixed 32} {letter : UInt8}
    {bytes : Bytes} :
    derivationInput sharedSecret exchangeHash letter sessionId = .ok bytes ↔
      bytes = encodeString (positiveMagnitude sharedSecret.val) ++
        (exchangeHash.val ++ letter :: sessionId.val) := by
  simp only [derivationInput, bind_eq_ok, appendPositiveMpint_ok, pure_eq_ok]
  simp

/-- Different arguments never have the same key input. -/
theorem derivationInput_inj {k k' h h' i i' : Fixed 32} {l l' : UInt8} {bytes : Bytes}
    (hd : derivationInput k h l i = .ok bytes) (hd' : derivationInput k' h' l' i' = .ok bytes) :
    k = k' ∧ h = h' ∧ l = l' ∧ i = i' := by
  rw [derivationInput_ok] at hd hd'
  obtain ⟨hk, htail⟩ := encodeString_append_inj (positiveMagnitude_fixed_lt k)
    (positiveMagnitude_fixed_lt k') (hd.symm.trans hd')
  obtain ⟨hh, hrest⟩ := List.append_inj htail (by rw [h.property, h'.property])
  obtain ⟨hl, hi⟩ := List.cons.inj hrest
  have hlen : k.val.length = k'.val.length := by rw [k.property, k'.property]
  exact ⟨Subtype.ext (positiveMagnitude_inj hlen hk), Subtype.ext hh, hl, Subtype.ext hi⟩

theorem derivationInput_length {k h i : Fixed 32} {l : UInt8} {bytes : Bytes}
    (hd : derivationInput k h l i = .ok bytes) : bytes.length ≤ 102 := by
  have hlen := positiveMagnitude_length_le k.val
  rw [k.property] at hlen
  rw [derivationInput_ok.mp hd]
  simp only [List.length_append, encodeString_length, List.length_cons, h.property, i.property]
  omega

theorem createClientKexinit_length {w t : Wire} {k : KexInit}
    (run : createClientKexinit.run w = .ok k t) : k.rawPayload.length = 144 := by
  have hwp : WP createClientKexinit w (fun k _ => k.rawPayload.length = 144)
      (fun _ _ => True) := by
    simp only [createClientKexinit, WP.bind_iff, wp_randombytesBuf, WP.lift_iff, WP.pure_iff]
    refine ⟨fun payload hpayload => ?_, fun _ _ => trivial⟩
    rw [(kexinitPayload_ok.mp hpayload).2]
    generalize Fixed.copy 16 _ = cookie
    simp only [kexinitBytes, List.length_cons, List.length_append, encodeUint32_length, nameLists,
      clientOffer, List.flatMap_cons, List.flatMap_nil, encodeString_length, cookie.property]
    decide
  exact hwp.of_ok run

/-- The transcript of an exchange of this client is longer than any key input. -/
theorem exchangeTranscript_length {ci si bytes : Bytes} {ck sk : KexInit} {cs : Curve25519State}
    {er : EcdhReply} (h : exchangeTranscript ci si ck sk cs er = .ok bytes) :
    ck.rawPayload.length ≤ bytes.length := by
  rw [(exchangeTranscript_ok.mp h).2]
  simp only [exchangeFields, List.flatMap_cons, List.length_append, encodeString_length]
  omega

/-- Key inputs determine their arguments, the six keys of a transport are digests of six
different inputs, and no key input is the transcript of an exchange. -/
theorem derivation_separated (crypto : Crypto) :
    (∀ (k k' h h' i i' : Fixed 32) (l l' : UInt8) (bytes : Bytes),
      derivationInput k h l i = .ok bytes → derivationInput k' h' l' i' = .ok bytes →
        k = k' ∧ h = h' ∧ l = l' ∧ i = i') ∧
    (∀ k h i : Fixed 32, ∃ a b c d e f : Bytes,
      derivationInput k h 65 i = .ok a ∧ derivationInput k h 66 i = .ok b ∧
      derivationInput k h 67 i = .ok c ∧ derivationInput k h 68 i = .ok d ∧
      derivationInput k h 69 i = .ok e ∧ derivationInput k h 70 i = .ok f ∧
      [a, b, c, d, e, f].Nodup ∧
      deriveTransportKeys crypto k h i = .ok {
        ivCs := Fixed.first 16 (by decide) (crypto.hashSha256 a)
        ivSc := Fixed.first 16 (by decide) (crypto.hashSha256 b)
        encryptionKeyCs := crypto.hashSha256 c
        encryptionKeySc := crypto.hashSha256 d
        macKeyCs := crypto.hashSha256 e
        macKeySc := crypto.hashSha256 f }) ∧
    ∀ (w t : Wire) (ck sk : KexInit) (payload ci si bytes : Bytes) (cs : Curve25519State)
      (er : EcdhReply) (k h i : Fixed 32) (l : UInt8),
      createClientKexinit.run w = .ok ck t → parseKexinit payload = .ok sk →
        exchangeTranscript ci si ck sk cs er = .ok bytes →
        derivationInput k h l i ≠ .ok bytes := by
  refine ⟨fun k k' h h' i i' l l' bytes => derivationInput_inj, fun k h i => ?_, ?_⟩
  · have input : ∀ l, derivationInput k h l i = .ok _ := fun l => derivationInput_ok.mpr rfl
    refine ⟨_, _, _, _, _, _, input 65, input 66, input 67, input 68, input 69, input 70, ?_, ?_⟩
    · have hmap : (List.map (fun l => encodeString (positiveMagnitude k.val) ++
          (h.val ++ l :: i.val)) ([65, 66, 67, 68, 69, 70] : List UInt8)).Nodup := by
        refine List.Nodup.map (fun l l' heq => ?_) (by decide)
        exact (derivationInput_inj (derivationInput_ok.mpr rfl)
          (derivationInput_ok.mpr heq)).2.2.1
      exact hmap
    · simp only [deriveTransportKeys, deriveKeyMaterial, input]
      rfl
  · intro w t ck sk payload ci si bytes cs er k h i l hclient _ htranscript hd
    have h1 := createClientKexinit_length hclient
    have h2 := exchangeTranscript_length htranscript
    have h3 := derivationInput_length hd
    omega

end SshClient.Kex
