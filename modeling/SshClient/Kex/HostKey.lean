import SshClient.Kex.Basic

/-!
# The host key and the signature of the server

Both are a pair of strings, the name of the algorithm and the value, and both are read to
their last byte. A public key therefore has one blob only: the blob whose signature is
checked and the blob that is looked up among the known hosts cannot differ when the key
does not.
-/

namespace SshClient.Kex

open Control

variable {bytes payload : Bytes}

/-- The blob of an Ed25519 key or signature. -/
def ed25519Blob (value : Bytes) : Bytes := encodeString (ascii "ssh-ed25519") ++ encodeString value

/-- The body that both halves of `parseEd25519VerificationData` share: a name with a test, a
value of a fixed length, and the end of the buffer. -/
def readPair {α : Type} (bytes : Bytes) (wrong : Bytes → Prop) [DecidablePred wrong] (size : Nat)
    (wrongName wrongSize wrongEnd : Stop) (result : Bytes → Bytes → α) : Exec Nat α := do
  let name ← readString bytes
  failIf (wrong name) wrongName
  let value ← readString bytes
  failIf (value.length ≠ size) wrongSize
  let position ← get
  failIf (position ≠ bytes.length) wrongEnd
  return result name value

theorem evalOn_readPair {α : Type} {wrong : Bytes → Prop} [DecidablePred wrong] {size : Nat}
    (hsize : size < 4294967296) {wrongName wrongSize wrongEnd : Stop} {result : Bytes → Bytes → α}
    {a : α} :
    evalOn (readPair bytes wrong size wrongName wrongSize wrongEnd result) 0 = .ok a ↔
      ∃ name value : Bytes, name.length < 4294967296 ∧ ¬ wrong name ∧ value.length = size ∧
        bytes = encodeString name ++ encodeString value ∧ a = result name value := by
  constructor
  · intro h
    refine evalOn_of_wp (fun a => ∃ name value : Bytes, name.length < 4294967296 ∧ ¬ wrong name ∧
      value.length = size ∧ bytes = encodeString name ++ encodeString value ∧
      a = result name value) ?_ h
    simp only [readPair, WP.bind_iff, WP.failIf_iff, WP.get_iff, WP.pure_iff]
    refine wp_readString (fun name hname _ h1 => ⟨fun _ => trivial, fun hright => ?_⟩)
      (fun _ _ _ _ => trivial)
    refine wp_readString (fun value _ _ h2 => ⟨fun _ => trivial, fun hlen => ⟨fun _ => trivial,
      fun hend => ?_⟩⟩) (fun _ _ _ _ => trivial)
    refine ⟨name, value, hname, hright, Decidable.not_not.mp hlen, ?_, rfl⟩
    rw [drop_eq_nil_of_end hend, List.append_nil] at h2
    rw [List.drop_zero] at h1
    rw [← h2]
    exact h1
  · rintro ⟨name, value, hname, hright, hlen, hbytes, rfl⟩
    obtain ⟨r1, d1⟩ := readString_of_drop hname (show bytes.drop 0 = _ from hbytes)
    have hvalue : value.length < 4294967296 := by omega
    obtain ⟨r2, d2⟩ := readString_of_drop hvalue (d1.trans (List.append_nil _).symm)
    have hend : 0 + 4 + name.length + 4 + value.length = bytes.length := by
      rw [hbytes]
      simp
      omega
    refine evalOn_eq_ok.mpr ⟨bytes.length, WP.run_eq ?_⟩
    simp only [readPair, WP.bind_iff, WP.failIf_iff, WP.get_iff, WP.pure_iff, WP.ok_iff r1,
      WP.ok_iff r2]
    exact ⟨fun h => absurd h hright, fun _ => ⟨fun h => absurd hlen h, fun _ =>
      ⟨fun h => absurd hend h, fun _ => ⟨trivial, hend⟩⟩⟩⟩

theorem parseEd25519VerificationData_eq (reply : EcdhReply) (negotiated : Bytes) :
    parseEd25519VerificationData reply negotiated = (do
      let (algorithmName, publicKey) ← evalOn (readPair reply.serverHostKey
        (fun name => name ≠ negotiated ∨ name ≠ ascii "ssh-ed25519") 32
        (error "Algorithm is not the negotiated ssh-ed25519.")
        (error "Ed25519 public key must be 32 bytes")
        (error "Unexpected bytes in Ed25519 host key")
        (fun name value => (name, Fixed.copy 32 value))) 0
      evalOn (readPair reply.signature
        (fun name => algorithmName ≠ negotiated ∨ name ≠ ascii "ssh-ed25519") 64
        (error "Algorithm is not the negotiated ssh-ed25519.")
        (error "Ed25519 signature must be 64 bytes")
        (error "Unexpected bytes in Ed25519 signature")
        (fun _ value => { publicKey := publicKey, signature := Fixed.copy 64 value })) 0) := rfl

/-- What is read as a key or a signature is exactly its blob. The name in the signature is
compared with the constant only, which is enough since the negotiated name has been
compared with it before. -/
theorem parseEd25519VerificationData_ok {reply : EcdhReply} {negotiated : Bytes}
    {data : Ed25519VerificationData} :
    parseEd25519VerificationData reply negotiated = .ok data ↔
      negotiated = ascii "ssh-ed25519" ∧ reply.serverHostKey = ed25519Blob data.publicKey.val ∧
        reply.signature = ed25519Blob data.signature.val := by
  rw [parseEd25519VerificationData_eq, bind_eq_ok]
  have hcopy : ∀ {n : Nat} (value : Fixed n), Fixed.copy n value.val = value := fun value =>
    Subtype.ext (Fixed.copy_val value.property)
  constructor
  · rintro ⟨⟨name, publicKey⟩, hfirst, hsecond⟩
    obtain ⟨name', key, -, hname, hkey, hblob, heq⟩ := (evalOn_readPair (by decide)).mp hfirst
    cases heq
    obtain ⟨signatureName, signature, -, hsignatureName, hsignature, hblob', rfl⟩ :=
      (evalOn_readPair (by decide)).mp hsecond
    simp only [not_or, Decidable.not_not] at hname hsignatureName
    obtain ⟨rfl, rfl⟩ := hname
    obtain ⟨-, rfl⟩ := hsignatureName
    refine ⟨rfl, ?_, ?_⟩
    · rw [Fixed.copy_val hkey]
      exact hblob
    · rw [Fixed.copy_val hsignature]
      exact hblob'
  · rintro ⟨rfl, hblob, hblob'⟩
    refine ⟨(ascii "ssh-ed25519", data.publicKey), (evalOn_readPair (by decide)).mpr
      ⟨ascii "ssh-ed25519", data.publicKey.val, by decide, by simp, data.publicKey.property, hblob,
        by rw [hcopy]⟩, (evalOn_readPair (by decide)).mpr ⟨ascii "ssh-ed25519", data.signature.val,
        by decide, by simp, data.signature.property, hblob', by rw [hcopy]⟩⟩

/-- The message with the three strings of the server. -/
def ecdhReplyBytes (hostKey publicKey signature : Bytes) : Bytes :=
  Message.kexEcdhReply ::
    (encodeString hostKey ++ (encodeString publicKey ++ encodeString signature))

theorem parseEcdhReply_ok {reply : EcdhReply} :
    parseEcdhReply payload = .ok reply ↔
      reply.serverHostKey.length < 4294967296 ∧ reply.signature.length < 4294967296 ∧
        payload = ecdhReplyBytes reply.serverHostKey reply.serverPublicKey.val reply.signature := by
  constructor
  · intro h
    refine evalOn_of_wp (fun reply : EcdhReply => reply.serverHostKey.length < 4294967296 ∧
      reply.signature.length < 4294967296 ∧ payload =
        ecdhReplyBytes reply.serverHostKey reply.serverPublicKey.val reply.signature) ?_ h
    simp only [WP.bind_iff, WP.failIf_iff, WP.get_iff, WP.pure_iff]
    refine ⟨fun _ => trivial, fun _ => ⟨fun _ => trivial, fun hhead => ?_⟩⟩
    refine wp_readString (fun hostKey n1 _ h1 => ?_) (fun _ _ _ _ => trivial)
    refine wp_readString (fun key n2 _ h2 => ⟨fun _ => trivial, fun hkey => ?_⟩)
      (fun _ _ _ _ => trivial)
    refine wp_readString (fun signature n3 _ h3 => ⟨fun _ => trivial, fun hend => ⟨n1, n3, ?_⟩⟩)
      (fun _ _ _ _ => trivial)
    rw [drop_eq_nil_of_end hend, List.append_nil] at h3
    rw [Fixed.copy_val (Decidable.not_not.mp hkey), ecdhReplyBytes, ← h3, ← h2, ← h1]
    exact eq_cons_drop_one hhead
  · rintro ⟨n1, n3, hpayload⟩
    have n2 : reply.serverPublicKey.val.length = 32 := reply.serverPublicKey.property
    have d0 := congrArg (List.drop 1) hpayload
    obtain ⟨r1, d1⟩ := readString_of_drop n1 (show payload.drop 1 = _ from d0)
    obtain ⟨r2, d2⟩ := readString_of_drop (by omega) d1
    obtain ⟨r3, d3⟩ := readString_of_drop n3 (d2.trans (List.append_nil _).symm)
    have hlen : payload.length = 1 + 4 + reply.serverHostKey.length + 4 +
        reply.serverPublicKey.val.length + 4 + reply.signature.length := by
      rw [hpayload, ecdhReplyBytes]
      simp
      omega
    have hhead : payload.head? = some Message.kexEcdhReply := by
      rw [hpayload]
      rfl
    have hcopy : Fixed.copy 32 reply.serverPublicKey.val = reply.serverPublicKey :=
      Subtype.ext (Fixed.copy_val n2)
    refine evalOn_eq_ok.mpr ⟨payload.length, WP.run_eq ?_⟩
    simp only [WP.bind_iff, WP.failIf_iff, WP.get_iff, WP.pure_iff, WP.ok_iff r1, WP.ok_iff r2,
      WP.ok_iff r3, hhead, hcopy]
    refine ⟨fun _ => by omega, fun _ => ⟨fun h => h rfl, fun _ => ⟨fun h => h n2, fun _ =>
      ⟨fun h => h hlen.symm, fun _ => ⟨trivial, hlen.symm⟩⟩⟩⟩⟩

/-- The verification data is accepted exactly when name, host key and signature are the ones
of an Ed25519 key, and a public key has one host key blob. The reply is accepted exactly
when it is three strings of which the second has 32 bytes. An accepted payload is
determined by the public key, the ephemeral key and the signature. -/
theorem verified_key_determines_blob :
    (∀ reply negotiated data, parseEd25519VerificationData reply negotiated = .ok data ↔
      negotiated = ascii "ssh-ed25519" ∧ reply.serverHostKey = ed25519Blob data.publicKey.val ∧
        reply.signature = ed25519Blob data.signature.val) ∧
    (∀ reply reply' negotiated negotiated' data data',
      parseEd25519VerificationData reply negotiated = .ok data →
      parseEd25519VerificationData reply' negotiated' = .ok data' →
      data.publicKey = data'.publicKey → reply.serverHostKey = reply'.serverHostKey) ∧
    (∀ payload, (∃ reply, parseEcdhReply payload = .ok reply) ↔
      ∃ hostKey publicKey signature : Bytes, hostKey.length < 4294967296 ∧ publicKey.length = 32 ∧
        signature.length < 4294967296 ∧ payload = ecdhReplyBytes hostKey publicKey signature) ∧
    ∀ payload payload' reply reply' negotiated negotiated' data data',
      parseEcdhReply payload = .ok reply → parseEcdhReply payload' = .ok reply' →
      parseEd25519VerificationData reply negotiated = .ok data →
      parseEd25519VerificationData reply' negotiated' = .ok data' →
      data.publicKey = data'.publicKey → reply.serverPublicKey = reply'.serverPublicKey →
      data.signature = data'.signature → payload = payload' := by
  refine ⟨fun _ _ _ => parseEd25519VerificationData_ok, ?_, fun payload => ⟨?_, ?_⟩, ?_⟩
  · intro reply reply' negotiated negotiated' data data' h h' hkey
    obtain ⟨-, hblob, -⟩ := parseEd25519VerificationData_ok.mp h
    obtain ⟨-, hblob', -⟩ := parseEd25519VerificationData_ok.mp h'
    rw [hblob, hblob', hkey]
  · rintro ⟨reply, h⟩
    obtain ⟨n1, n3, hpayload⟩ := parseEcdhReply_ok.mp h
    exact ⟨_, _, _, n1, reply.serverPublicKey.property, n3, hpayload⟩
  · rintro ⟨hostKey, publicKey, signature, n1, n2, n3, hpayload⟩
    exact ⟨⟨hostKey, ⟨publicKey, n2⟩, signature⟩, parseEcdhReply_ok.mpr ⟨n1, n3, hpayload⟩⟩
  · intro payload payload' reply reply' negotiated negotiated' data data' hreply hreply' h h' hkey
      hephemeral hsignature
    obtain ⟨-, -, hpayload⟩ := parseEcdhReply_ok.mp hreply
    obtain ⟨-, -, hpayload'⟩ := parseEcdhReply_ok.mp hreply'
    obtain ⟨-, hblob, hsigned⟩ := parseEd25519VerificationData_ok.mp h
    obtain ⟨-, hblob', hsigned'⟩ := parseEd25519VerificationData_ok.mp h'
    rw [hpayload, hpayload', hblob, hblob', hsigned, hsigned', hkey, hephemeral, hsignature]

end SshClient.Kex
