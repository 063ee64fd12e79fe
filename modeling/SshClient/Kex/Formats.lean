import SshClient.Kex.Basic

/-!
# The layout of KEXINIT

`readNameList` is `readString` with other texts, and `appendNameList` is `appendString`, so
a name-list is an encoded string. A payload is then a cookie, ten encoded strings, a flag
and four zero bytes, and the parser accepts nothing else.
-/

namespace SshClient.Kex

open Control

variable {payload : Bytes} {p : Nat} {fail : Stop → Nat → Prop}

/-! ### Name-lists -/

theorem appendNameList_ok {list result : Bytes} :
    appendNameList payload list = .ok result ↔
      list.length < 4294967296 ∧ result = payload ++ encodeString list := by
  rw [← appendString_ok]
  unfold appendNameList appendString
  split <;> simp

/-- Two readers return the same value with the same cursor, or both throw with the same
cursor. -/
def SameOutcome {α : Type} (x y : Exec Nat α) (p : Nat) : Prop :=
  WP x p (fun a q => WP y p (fun b r => b = a ∧ r = q) (fun _ _ => False))
    (fun e q => (∃ what, e = .thrown what) ∧
      WP y p (fun _ _ => False) (fun e' r => (∃ what, e' = .thrown what) ∧ r = q))

/-- The reader of name-lists does not test the cursor a second time, which changes
nothing. -/
theorem readNameList_sameOutcome (payload : Bytes) (p : Nat) :
    SameOutcome (readNameList payload) (readString payload) p := by
  simp only [SameOutcome, readNameList, readString, WP.bind_iff, WP.get_iff, WP.failIf_iff,
    wp_sizeSub, wp_copyRange, WP.set_iff, WP.pure_iff, error, Stop.thrown.injEq, exists_eq',
    true_and, and_true, reduceCtorEq, exists_false, false_and]
  simp only [uint32Bytes]
  by_cases h1 : p > payload.length
  · simp [h1]
  by_cases h2 : payload.length - p < 4
  · simp [h2]
  have h3 : p + 4 ≤ payload.length := by omega
  have h4 : p ≤ payload.length := by omega
  generalize (decodeUint32 ((payload.drop p).take 4)).toNat = n
  by_cases h5 : payload.length - (p + 4) < n
  · simp [h1, h2, h3, h4, h5]
  · have h6 : p + 4 + n ≤ payload.length := by omega
    simp [h1, h2, h3, h4, h5, h6]

theorem wp_readNameList {post : Bytes → Nat → Prop}
    (ok : ∀ value, value.length < 4294967296 → p + 4 + value.length ≤ payload.length →
      payload.drop p = encodeString value ++ payload.drop (p + 4 + value.length) →
      post value (p + 4 + value.length))
    (short : ∀ what q, q = p ∨ q = p + 4 → NoString payload p → fail (.thrown what) q) :
    WP (readNameList payload) p post fail := by
  have same := readNameList_sameOutcome payload p
  have spec : WP (readString payload) p
      (fun value q => value.length < 4294967296 ∧ q = p + 4 + value.length ∧
        q ≤ payload.length ∧ payload.drop p = encodeString value ++ payload.drop q)
      (fun _ q => (q = p ∨ q = p + 4) ∧ NoString payload p) :=
    wp_readString (fun value hlt hle hdrop => ⟨hlt, rfl, hle, hdrop⟩)
      (fun _ _ hq hno => ⟨hq, hno⟩)
  apply WP.intro
  · intro _ _ run
    obtain ⟨value, q, run', rfl, rfl⟩ := (same.of_ok run).exists_ok
    obtain ⟨hlt, rfl, hle, hdrop⟩ := spec.of_ok run'
    exact ok value hlt hle hdrop
  · intro e q run
    obtain ⟨⟨what, rfl⟩, hstring⟩ := same.of_error run
    obtain ⟨_, _, run', -, rfl⟩ := hstring.exists_error
    obtain ⟨hq, hno⟩ := spec.of_error run'
    exact short what _ hq hno

/-- A name-list at the cursor is read back, whatever follows it. -/
theorem readNameList_of_drop {value rest : Bytes} (hlt : value.length < 4294967296)
    (h : payload.drop p = encodeString value ++ rest) :
    (readNameList payload).run p = .ok value (p + 4 + value.length) ∧
      payload.drop (p + 4 + value.length) = rest := by
  obtain ⟨run, hrest⟩ := readString_of_drop hlt h
  have same := readNameList_sameOutcome payload p
  refine ⟨WP.run_eq (WP.intro ?_ ?_), hrest⟩
  · intro value' q run'
    obtain ⟨hvalue, hq⟩ := (WP.ok_iff run).mp (same.of_ok run')
    exact ⟨hvalue.symm, hq.symm⟩
  · intro e q run'
    exact (WP.ok_iff run).mp (same.of_error run').2

theorem wp_parseBoolean {post : Bool → Nat → Prop}
    (ok : ∀ byte, p < payload.length → payload.drop p = byte :: payload.drop (p + 1) →
      post (byte != 0) (p + 1))
    (short : ∀ what, payload.length ≤ p → fail (.thrown what) p) :
    WP (parseBoolean payload) p post fail := by
  simp only [parseBoolean, WP.bind_iff, WP.get_iff, WP.failIf_iff, wp_sizeSub, wp_byteAt,
    WP.set_iff, WP.pure_iff]
  refine ⟨fun _ => short _ (by omega), fun hp => ⟨fun _ => ⟨fun _ => short _ (by omega),
    fun hr => ⟨fun byte hbyte => ?_, fun hnone => ?_⟩⟩, fun hn => absurd ?_ hn⟩⟩
  · obtain ⟨hlt, rfl⟩ := List.getElem?_eq_some_iff.mp hbyte
    exact ok _ hlt (List.drop_eq_getElem_cons hlt)
  · rw [List.getElem?_eq_none_iff] at hnone
    omega
  · omega

/-! ### The layout -/

/-- The ten name-lists in the order of the message. -/
def nameLists (k : KexInit) : List Bytes :=
  [k.kexAlgorithms, k.hostKeyAlgorithms, k.encryptionCsAlgorithms, k.encryptionScAlgorithms,
    k.macCsAlgorithms, k.macScAlgorithms, k.compressionCsAlgorithms, k.compressionScAlgorithms,
    k.languagesCs, k.languagesSc]

/-- The bytes of a message: any byte may stand for the flag. -/
def kexinitBytes (cookie : Bytes) (lists : List Bytes) (flag : UInt8) : Bytes :=
  Message.kexinit :: (cookie ++ (lists.flatMap encodeString ++ (flag :: encodeUint32 0)))

theorem kexinitPayload_ok {k : KexInit} :
    kexinitPayload k = .ok payload ↔
      (∀ list ∈ nameLists k, list.length < 4294967296) ∧
        payload = kexinitBytes k.cookie.val (nameLists k)
          (if k.firstKexPacketFollows then 1 else 0) := by
  simp only [kexinitPayload, bind_eq_ok, appendNameList_ok, pure_eq_ok, kexinitBytes, nameLists]
  simp
  tauto

/-- The payload is the layout of the fields, and the flag is any byte with its value. -/
def LaidOut (payload : Bytes) (k : KexInit) : Prop :=
  k.rawPayload = payload ∧ (∀ list ∈ nameLists k, list.length < 4294967296) ∧
    ∃ flag : UInt8, payload = kexinitBytes k.cookie.val (nameLists k) flag ∧
      k.firstKexPacketFollows = (flag != 0)

theorem laidOut_of_parseKexinit {k : KexInit} (h : parseKexinit payload = .ok k) :
    LaidOut payload k := by
  unfold parseKexinit at h
  refine evalOn_of_wp (LaidOut payload) ?_ h
  simp only [WP.bind_iff, WP.get_iff, WP.failIf_iff, WP.set_iff, WP.pure_iff, wp_sizeSub,
    wp_copyRange]
  refine ⟨fun _ => trivial, fun _ => ⟨fun _ => trivial, fun hhead => ⟨fun _ => ⟨fun _ => trivial,
    fun hcookie => ⟨fun hfit => ?_, fun _ => trivial⟩⟩, fun _ => trivial⟩⟩⟩
  refine wp_readNameList (fun l1 n1 _ h1 => ?_) (fun _ _ _ _ => trivial)
  refine wp_readNameList (fun l2 n2 _ h2 => ?_) (fun _ _ _ _ => trivial)
  refine wp_readNameList (fun l3 n3 _ h3 => ?_) (fun _ _ _ _ => trivial)
  refine wp_readNameList (fun l4 n4 _ h4 => ?_) (fun _ _ _ _ => trivial)
  refine wp_readNameList (fun l5 n5 _ h5 => ?_) (fun _ _ _ _ => trivial)
  refine wp_readNameList (fun l6 n6 _ h6 => ?_) (fun _ _ _ _ => trivial)
  refine wp_readNameList (fun l7 n7 _ h7 => ?_) (fun _ _ _ _ => trivial)
  refine wp_readNameList (fun l8 n8 _ h8 => ?_) (fun _ _ _ _ => trivial)
  refine wp_readNameList (fun l9 n9 _ h9 => ?_) (fun _ _ _ _ => trivial)
  refine wp_readNameList (fun l10 n10 _ h10 => ?_) (fun _ _ _ _ => trivial)
  refine wp_parseBoolean (fun flag _ hflag => ?_) (fun _ _ => trivial)
  refine ⟨fun _ => ⟨fun _ => trivial, fun hreserved => ⟨fun hfour => ⟨fun _ => trivial,
    fun hzero => ⟨fun _ => trivial, fun hend => ?_⟩⟩, fun _ => trivial⟩⟩, fun _ => trivial⟩
  refine ⟨rfl, ?_, flag, ?_, rfl⟩
  · simp only [nameLists, List.forall_mem_cons]
    exact ⟨n1, n2, n3, n4, n5, n6, n7, n8, n9, n10, by simp⟩
  · have hcopy : ((payload.drop 1).take cookieBytes).length = 16 := by
      rw [List.length_take, List.length_drop, cookieBytes]
      simp only [cookieBytes] at hfit
      omega
    have hsplit : payload.drop 1 =
        (payload.drop 1).take cookieBytes ++ payload.drop (1 + cookieBytes) := by
      rw [← List.drop_drop, List.take_append_drop]
    have hlast := drop_eq_encodeUint32 hfour
    rw [uint32Bytes] at hzero hend
    rw [Decidable.not_not.mp hzero, drop_eq_nil_of_end (fun h => hend h.symm), List.append_nil]
      at hlast
    simp only [kexinitBytes, nameLists, Fixed.copy_val hcopy, List.flatMap_cons, List.flatMap_nil,
      List.append_assoc, List.append_nil]
    generalize (payload.drop 1).take cookieBytes = cookie at hsplit ⊢
    calc payload = Message.kexinit :: payload.drop 1 := eq_cons_drop_one hhead
      _ = _ := by rw [hsplit, h1, h2, h3, h4, h5, h6, h7, h8, h9, h10, hflag, hlast]

theorem parseBoolean_of_drop {flag : UInt8} {rest : Bytes} (h : payload.drop p = flag :: rest) :
    (parseBoolean payload).run p = .ok (flag != 0) (p + 1) ∧ payload.drop (p + 1) = rest := by
  have hrest : payload.drop (p + 1) = rest := by
    rw [← List.drop_drop, h]
    rfl
  have hlen := congrArg List.length h
  rw [List.length_drop, List.length_cons] at hlen
  refine ⟨WP.run_eq (wp_parseBoolean (fun byte _ hbyte => ⟨?_, rfl⟩) (fun _ hs => by omega)), hrest⟩
  rw [h] at hbyte
  rw [(List.cons.inj hbyte).1]

theorem parseKexinit_of_laidOut {k : KexInit} (h : LaidOut payload k) :
    parseKexinit payload = .ok k := by
  obtain ⟨hraw, hlists, flag, hpayload, hflag⟩ := h
  simp only [nameLists, List.forall_mem_cons] at hlists
  obtain ⟨n1, n2, n3, n4, n5, n6, n7, n8, n9, n10, -⟩ := hlists
  simp only [kexinitBytes, nameLists, List.flatMap_cons, List.flatMap_nil, List.append_assoc,
    List.append_nil] at hpayload
  have hcookie : k.cookie.val.length = cookieBytes := k.cookie.property
  have dcookie := congrArg (List.drop 1) hpayload
  rw [List.drop_one, List.drop_one, List.tail_cons, ← List.drop_one] at dcookie
  have d0 := congrArg (List.drop cookieBytes) dcookie
  rw [List.drop_drop, List.drop_left' hcookie] at d0
  obtain ⟨r1, d1⟩ := readNameList_of_drop n1 d0
  obtain ⟨r2, d2⟩ := readNameList_of_drop n2 d1
  obtain ⟨r3, d3⟩ := readNameList_of_drop n3 d2
  obtain ⟨r4, d4⟩ := readNameList_of_drop n4 d3
  obtain ⟨r5, d5⟩ := readNameList_of_drop n5 d4
  obtain ⟨r6, d6⟩ := readNameList_of_drop n6 d5
  obtain ⟨r7, d7⟩ := readNameList_of_drop n7 d6
  obtain ⟨r8, d8⟩ := readNameList_of_drop n8 d7
  obtain ⟨r9, d9⟩ := readNameList_of_drop n9 d8
  obtain ⟨r10, d10⟩ := readNameList_of_drop n10 d9
  obtain ⟨r11, d11⟩ := parseBoolean_of_drop d10
  unfold parseKexinit
  refine evalOn_eq_ok.mpr ⟨payload.length, WP.run_eq ?_⟩
  simp only [WP.bind_iff, WP.get_iff, WP.failIf_iff, WP.set_iff, WP.pure_iff, wp_sizeSub,
    wp_copyRange, WP.ok_iff r1, WP.ok_iff r2, WP.ok_iff r3, WP.ok_iff r4, WP.ok_iff r5,
    WP.ok_iff r6, WP.ok_iff r7, WP.ok_iff r8, WP.ok_iff r9, WP.ok_iff r10, WP.ok_iff r11]
  have hhead : payload.head? = some Message.kexinit := by
    rw [hpayload]
    rfl
  have hlen := congrArg List.length d11
  rw [List.length_drop, encodeUint32_length] at hlen
  have htake : (payload.drop 1).take cookieBytes = k.cookie.val := by
    rw [dcookie, List.take_left' hcookie]
  have hcopy : Fixed.copy 16 k.cookie.val = k.cookie := by
    apply Subtype.ext
    exact Fixed.copy_val k.cookie.property
  rw [d11, htake, hcopy, List.take_of_length_le (by simp [uint32Bytes]),
    decodeUint32_encodeUint32, hhead]
  have hsize : cookieBytes = 16 := rfl
  have hfour : uint32Bytes = 4 := rfl
  refine ⟨fun _ => by omega, fun _ => ⟨fun h => h rfl, fun _ => ⟨fun _ => ⟨fun _ => by omega,
    fun _ => ⟨fun _ => ⟨fun _ => ⟨fun _ => by omega, fun _ => ⟨fun _ => ⟨fun h => h rfl,
      fun _ => ⟨fun _ => by omega, fun _ => ?_⟩⟩, fun _ => by omega⟩⟩, fun _ => by omega⟩,
      fun _ => by omega⟩⟩, fun _ => by omega⟩⟩⟩
  exact ⟨by rw [← hraw, ← hflag], by omega⟩

/-- Bytes have at most one decomposition as a message. -/
theorem kexinitBytes_inj {cookie cookie' : Bytes} {lists lists' : List Bytes} {flag flag' : UInt8}
    (hcookie : cookie.length = cookie'.length) (count : lists.length = lists'.length)
    (hlists : ∀ list ∈ lists, list.length < 4294967296)
    (hlists' : ∀ list ∈ lists', list.length < 4294967296)
    (h : kexinitBytes cookie lists flag = kexinitBytes cookie' lists' flag') :
    cookie = cookie' ∧ lists = lists' ∧ flag = flag' := by
  simp only [kexinitBytes, List.cons.injEq, true_and] at h
  obtain ⟨rfl, htail⟩ := List.append_inj h hcookie
  obtain ⟨rfl, hflag⟩ := flatMap_encodeString_inj count hlists hlists' htail
  exact ⟨rfl, rfl, (List.cons.inj hflag).1⟩

/-- The parser is the inverse of the layout: it accepts the layouts and nothing else, the
fields of a payload are determined by it, and what is serialised in the order of
`createClientKexinit` is read back. -/
theorem parseKexinit_exact :
    (∀ payload k, parseKexinit payload = .ok k ↔ LaidOut payload k) ∧
      (∀ payload, (∃ k, parseKexinit payload = .ok k) ↔
        ∃! fields : Bytes × List Bytes × UInt8, fields.1.length = cookieBytes ∧
          fields.2.1.length = 10 ∧ (∀ list ∈ fields.2.1, list.length < 4294967296) ∧
          payload = kexinitBytes fields.1 fields.2.1 fields.2.2) ∧
      ∀ k : KexInit, (∀ list ∈ nameLists k, list.length < 4294967296) →
        ∃ payload, kexinitPayload k = .ok payload ∧
          parseKexinit payload = .ok { k with rawPayload := payload } := by
  refine ⟨fun payload k => ⟨laidOut_of_parseKexinit, parseKexinit_of_laidOut⟩, fun payload => ?_,
    fun k hlists => ?_⟩
  · constructor
    · rintro ⟨k, hk⟩
      obtain ⟨-, hlists, flag, hpayload, -⟩ := laidOut_of_parseKexinit hk
      refine ⟨(k.cookie.val, nameLists k, flag), ⟨k.cookie.property, rfl, hlists, hpayload⟩, ?_⟩
      rintro ⟨cookie', lists', flag'⟩ ⟨hcookie', hcount', hlists', hpayload'⟩
      obtain ⟨h1, h2, h3⟩ := kexinitBytes_inj (hcookie'.trans k.cookie.property.symm) hcount'
        hlists' hlists (hpayload'.symm.trans hpayload)
      rw [← h1, ← h2, ← h3]
    · rintro ⟨⟨cookie, lists, flag⟩, ⟨hcookie, hcount, hlists, hpayload⟩, -⟩
      match lists, hcount with
      | [l1, l2, l3, l4, l5, l6, l7, l8, l9, l10], _ =>
          exact ⟨⟨payload, ⟨cookie, hcookie⟩, l1, l2, l3, l4, l5, l6, l7, l8, l9, l10, flag != 0⟩,
            parseKexinit_of_laidOut ⟨rfl, hlists, flag, hpayload, rfl⟩⟩
  · have hpayload := kexinitPayload_ok.mpr ⟨hlists, rfl⟩
    refine ⟨_, hpayload, parseKexinit_of_laidOut ⟨rfl, hlists, _, rfl, ?_⟩⟩
    cases k.firstKexPacketFollows <;> rfl

end SshClient.Kex
