import SshClient.Connection.Basic

/-!
# Message formats and the rules of their parsers

Each format is stated once as the bytes of a whole message. A parser rule has one
premise for acceptance, which fixes the payload, the conditions on the channel and
the only assignment made, and one for rejection, where the exception leaves the
channel as it was. The converse direction, that a message of the right format is
accepted, is an equation of the run.
-/

namespace SshClient.Connection

open Control

/-! ### Formats -/

/-- A message that carries only the recipient channel: a reply, EOF or close. -/
def recipientOnly (number : UInt8) (recipient : UInt32) : Bytes :=
  number :: encodeUint32 recipient

/-- The channel of the server, its window and its largest packet. -/
def openConfirmation (recipient sender window maxPacket : UInt32) : Bytes :=
  Message.channelOpenConfirmation :: (encodeUint32 recipient ++ (encodeUint32 sender ++
    (encodeUint32 window ++ encodeUint32 maxPacket)))

/-- The reason for a refusal, with a text and the language of the text. -/
def openFailure (recipient : UInt32) (failure : ChannelOpenFailure) : Bytes :=
  Message.channelOpenFailure :: (encodeUint32 recipient ++ (encodeUint32 failure.reasonCode ++
    (encodeString failure.description ++ encodeString failure.language)))

/-- The bytes by which the receiver of the message may send more. -/
def windowAdjust (recipient bytesToAdd : UInt32) : Bytes :=
  Message.channelWindowAdjust :: (encodeUint32 recipient ++ encodeUint32 bytesToAdd)

/-- Data is one string behind the recipient. -/
def channelData (recipient : UInt32) (data : Bytes) : Bytes :=
  Message.channelData :: (encodeUint32 recipient ++ encodeString data)

/-- The type stands between the recipient and the data. -/
def extendedData (recipient dataType : UInt32) (data : Bytes) : Bytes :=
  Message.channelExtendedData ::
    (encodeUint32 recipient ++ (encodeUint32 dataType ++ encodeString data))

/-- A channel request by the name "exit-status", with a reply flag and the status. -/
def exitStatus (recipient : UInt32) (wantReply : UInt8) (status : UInt32) : Bytes :=
  Message.channelRequest :: (encodeUint32 recipient ++ (encodeString (ascii "exit-status") ++
    (wantReply :: encodeUint32 status)))

/-- The data of a request reaches to the end of the payload. -/
def globalRequest (name : Bytes) (wantReply : UInt8) (data : Bytes) : Bytes :=
  Message.globalRequest :: (encodeString name ++ (wantReply :: data))

section Heads

variable (recipient : UInt32)

@[simp] theorem head?_recipientOnly (number : UInt8) :
    (recipientOnly number recipient).head? = some number := rfl

@[simp] theorem head?_openConfirmation (sender window maxPacket : UInt32) :
    (openConfirmation recipient sender window maxPacket).head? =
      some Message.channelOpenConfirmation := rfl

@[simp] theorem head?_windowAdjust (n : UInt32) :
    (windowAdjust recipient n).head? = some Message.channelWindowAdjust := rfl

@[simp] theorem head?_channelData (data : Bytes) :
    (channelData recipient data).head? = some Message.channelData := rfl

@[simp] theorem head?_extendedData (dataType : UInt32) (data : Bytes) :
    (extendedData recipient dataType data).head? = some Message.channelExtendedData := rfl

@[simp] theorem head?_exitStatus (wantReply : UInt8) (status : UInt32) :
    (exitStatus recipient wantReply status).head? = some Message.channelRequest := rfl

@[simp] theorem head?_globalRequest (name data : Bytes) (wantReply : UInt8) :
    (globalRequest name wantReply data).head? = some Message.globalRequest := rfl

end Heads

/-- The data field of a data message. -/
def dataOf (payload : Bytes) : Option Bytes :=
  if payload.head? = some Message.channelData then some (payload.drop 9) else none

/-- The number of bytes granted by a window adjustment. -/
def adjustOf (payload : Bytes) : Option UInt32 :=
  if payload.head? = some Message.channelWindowAdjust then some (decodeUint32 (payload.drop 5))
  else none

/-- The window that the server opens with. -/
def windowOf (payload : Bytes) : Option UInt32 :=
  if payload.head? = some Message.channelOpenConfirmation then
    some (decodeUint32 ((payload.drop 9).take 4))
  else none

@[simp] theorem dataOf_channelData (recipient : UInt32) (data : Bytes) :
    dataOf (channelData recipient data) = some data := by
  simp [dataOf, channelData, encodeUint32_eq, encodeString]

@[simp] theorem dataOf_windowAdjust (recipient n : UInt32) :
    dataOf (windowAdjust recipient n) = none := by
  simp [dataOf, windowAdjust, Message.channelData, Message.channelWindowAdjust]

@[simp] theorem adjustOf_channelData (recipient : UInt32) (data : Bytes) :
    adjustOf (channelData recipient data) = none := by
  simp [adjustOf, channelData, Message.channelData, Message.channelWindowAdjust]

@[simp] theorem adjustOf_windowAdjust (recipient n : UInt32) :
    adjustOf (windowAdjust recipient n) = some n := by
  have hdrop : (encodeUint32 recipient ++ encodeUint32 n).drop 4 = encodeUint32 n :=
    List.drop_left' (encodeUint32_length recipient)
  simp [adjustOf, windowAdjust, hdrop]

@[simp] theorem windowOf_openConfirmation (recipient sender window maxPacket : UInt32) :
    windowOf (openConfirmation recipient sender window maxPacket) = some window := by
  have hdrop : (encodeUint32 recipient ++ (encodeUint32 sender ++ (encodeUint32 window ++
      encodeUint32 maxPacket))).drop 8 = encodeUint32 window ++ encodeUint32 maxPacket := by
    rw [← List.append_assoc]
    exact List.drop_left' (by simp)
  simp [windowOf, openConfirmation, hdrop]

section OtherHeads

variable {payload : Bytes} {number : UInt8} (head : payload.head? = some number)

include head

theorem dataOf_of_head (other : number ≠ Message.channelData) : dataOf payload = none := by
  simp [dataOf, head, other]

theorem adjustOf_of_head (other : number ≠ Message.channelWindowAdjust) :
    adjustOf payload = none := by
  simp [adjustOf, head, other]

theorem windowOf_of_head (other : number ≠ Message.channelOpenConfirmation) :
    windowOf payload = none := by
  simp [windowOf, head, other]

end OtherHeads

/-! ### Acceptance implies the format -/

variable {payload : Bytes} {c : Channel} {fail : Stop → Channel → Prop}

/-- The overflow test of both window functions, without the wrap of its subtraction. -/
theorem gt_uint32Max_sub_iff (window n : UInt32) :
    window > uint32Max - n ↔ 4294967296 ≤ window.toNat + n.toNat := by
  have hn := n.toNat_lt
  have hw := window.toNat_lt
  have hmax : UInt32.toNat uint32Max = 4294967295 := rfl
  rw [gt_iff_lt, UInt32.lt_iff_toNat_lt, UInt32.toNat_sub, hmax]
  omega

/-- Data that fits into a window is taken from it without a wrap. -/
theorem toNat_sub_length {window : UInt32} {data : Bytes}
    (h : data.length ≤ window.toNat) :
    (window - UInt32.ofNat data.length).toNat = window.toNat - data.length := by
  have hw := window.toNat_lt
  have hd : (UInt32.ofNat data.length).toNat = data.length :=
    UInt32.toNat_ofNat_of_lt' (Nat.lt_of_le_of_lt h hw)
  rw [UInt32.toNat_sub_of_le, hd]
  rw [UInt32.le_iff_toNat_le, hd]
  exact h

/-- Bytes that are added to a window without a wrap. -/
theorem toNat_add_of_lt {window n : UInt32} (h : window.toNat + n.toNat < 4294967296) :
    (window + n).toNat = window.toNat + n.toNat := by
  rw [UInt32.toNat_add]
  omega

/-- All four fields are read before the first of them is checked. -/
theorem wp_parseOpenConfirmation {post : Unit → Channel → Prop}
    (ok : ∀ sender window maxPacket, c.isOpen = false →
      payload = openConfirmation c.localId sender window maxPacket →
      minMaxPacketSize ≤ maxPacket →
      post () { c with
        remoteId := sender
        remoteWindow := window
        remoteMaxPacket := maxPacket
        isOpen := true })
    (reject : ∀ what, fail (.thrown what) c) :
    WP (parseOpenConfirmation payload) c post fail := by
  simp only [parseOpenConfirmation, WP.bind_iff, WP.get_iff, WP.failIf_iff, WP.withLocal_iff,
    WP.onLocal_iff, WP.onOuter_iff, WP.modify_iff]
  refine ⟨fun _ => reject _, fun hopen => ⟨fun _ => reject _, fun hhead => ?_⟩⟩
  refine wp_readUint32 (fun recipient _ h1 => ?_) (fun _ _ => reject _)
  refine wp_readUint32 (fun sender _ h2 => ?_) (fun _ _ => reject _)
  refine wp_readUint32 (fun window _ h3 => ?_) (fun _ _ => reject _)
  refine wp_readUint32 (fun maxPacket _ h4 => ?_) (fun _ _ => reject _)
  refine ⟨fun _ => reject _, fun hid => ⟨fun _ => reject _, fun hmax => ⟨fun _ => reject _,
    fun hend => ok sender window maxPacket (by simpa using hopen) ?_ (by simpa using hmax)⟩⟩⟩
  rw [eq_cons_drop_one hhead, h1, h2, h3, h4, drop_eq_nil_of_end hend, Decidable.not_not.mp hid]
  simp [openConfirmation]

/-- Nothing is assigned, whatever the parser does. -/
theorem wp_parseOpenFailure {post : ChannelOpenFailure → Channel → Prop}
    (ok : ∀ failure, c.isOpen = false → payload = openFailure c.localId failure →
      failure.description.length < 4294967296 → failure.language.length < 4294967296 →
      post failure c)
    (reject : ∀ what, fail (.thrown what) c) :
    WP (parseOpenFailure payload) c post fail := by
  simp only [parseOpenFailure, WP.bind_iff, WP.get_iff, WP.failIf_iff, WP.withLocal_iff,
    WP.onLocal_iff, WP.pure_iff]
  refine ⟨fun _ => reject _, fun hopen => ⟨fun _ => reject _, fun hhead => ?_⟩⟩
  refine wp_readUint32 (fun recipient _ h1 => ?_) (fun _ _ => reject _)
  refine wp_readUint32 (fun reason _ h2 => ?_) (fun _ _ => reject _)
  refine wp_readString (fun description n3 _ h3 => ?_) (fun _ _ _ _ => reject _)
  refine wp_readString (fun language n4 _ h4 => ?_) (fun _ _ _ _ => reject _)
  refine ⟨fun _ => reject _, fun hend => ⟨fun _ => reject _, fun hid =>
    ok ⟨reason, description, language⟩ (by simpa using hopen) ?_ n3 n4⟩⟩
  rw [eq_cons_drop_one hhead, h1, h2, h3, h4, drop_eq_nil_of_end hend, Decidable.not_not.mp hid]
  simp [openFailure]

/-- The rule of both replies, which leave the channel alone. -/
theorem wp_validateChannelReply {number : UInt8} {expected : String}
    {post : Unit → Channel → Prop}
    (ok : payload = recipientOnly number c.localId → post () c)
    (reject : ∀ what, fail (.thrown what) c) :
    WP (validateChannelReply number expected payload) c post fail := by
  simp only [validateChannelReply, WP.bind_iff, WP.get_iff, WP.failIf_iff, WP.withLocal_iff,
    WP.onLocal_iff]
  refine ⟨fun _ => reject _, fun hhead => ?_⟩
  refine wp_readUint32 (fun recipient _ h1 => ?_) (fun _ _ => reject _)
  refine ⟨fun _ => reject _, fun hid => ⟨fun _ => reject _, fun hend => ok ?_⟩⟩
  rw [eq_cons_drop_one hhead, h1, drop_eq_nil_of_end hend, Decidable.not_not.mp hid]
  simp [recipientOnly]

/-- The sum is below 2^32, so the new window is the sum. -/
theorem wp_parseWindowAdjust {post : Unit → Channel → Prop}
    (ok : ∀ n, c.isOpen = true → payload = windowAdjust c.localId n → n ≠ 0 →
      c.remoteWindow.toNat + n.toNat < 4294967296 →
      post () { c with remoteWindow := c.remoteWindow + n })
    (reject : ∀ what, fail (.thrown what) c) :
    WP (parseWindowAdjust payload) c post fail := by
  simp only [parseWindowAdjust, WP.bind_iff, WP.get_iff, WP.failIf_iff, WP.withLocal_iff,
    WP.onLocal_iff, WP.onOuter_iff, WP.modify_iff]
  refine ⟨fun _ => reject _, fun hopen => ⟨fun _ => reject _, fun hhead => ?_⟩⟩
  refine wp_readUint32 (fun recipient _ h1 => ?_) (fun _ _ => reject _)
  refine wp_readUint32 (fun n _ h2 => ?_) (fun _ _ => reject _)
  refine ⟨fun _ => reject _, fun hid => ⟨fun _ => reject _, fun hend => ⟨fun _ => reject _,
    fun hzero => ⟨fun _ => reject _, fun hover => ok n (by simpa using hopen) ?_ hzero ?_⟩⟩⟩⟩
  · rw [eq_cons_drop_one hhead, h1, h2, drop_eq_nil_of_end hend, Decidable.not_not.mp hid]
    simp [windowAdjust]
  · rw [gt_uint32Max_sub_iff] at hover
    omega

/-- Both limits hold when the window is reduced, so it does not wrap. -/
theorem wp_parseChannelData {post : Bytes → Channel → Prop}
    (ok : ∀ data, c.isOpen = true → payload = channelData c.localId data →
      data.length ≤ c.localMaxPacket.toNat → data.length ≤ c.localWindow.toNat →
      post data { c with localWindow := c.localWindow - UInt32.ofNat data.length })
    (reject : ∀ what, fail (.thrown what) c) :
    WP (parseChannelData payload) c post fail := by
  simp only [parseChannelData, consumeLocalWindow, WP.bind_iff, WP.get_iff, WP.failIf_iff,
    WP.withLocal_iff, WP.onLocal_iff, WP.onOuter_iff, WP.modify_iff, WP.pure_iff]
  refine ⟨fun _ => reject _, fun hopen => ⟨fun _ => reject _, fun hhead => ?_⟩⟩
  refine wp_readUint32 (fun recipient _ h1 => ?_) (fun _ _ => reject _)
  refine ⟨fun _ => reject _, fun hid => ?_⟩
  refine wp_readString (fun data _ _ h2 => ?_) (fun _ _ _ _ => reject _)
  refine ⟨fun _ => reject _, fun hend => ⟨fun _ => reject _, fun hmax => ⟨fun _ => reject _,
    fun hwin => ok data (by simpa using hopen) ?_ (by omega) (by omega)⟩⟩⟩
  rw [eq_cons_drop_one hhead, h1, h2, drop_eq_nil_of_end hend, Decidable.not_not.mp hid]
  simp [channelData]

/-- As for data, with the type 1 in front. -/
theorem wp_parseChannelExtendedData {post : ChannelExtendedData → Channel → Prop}
    (ok : ∀ data, c.isOpen = true → payload = extendedData c.localId 1 data →
      data.length ≤ c.localMaxPacket.toNat → data.length ≤ c.localWindow.toNat →
      post ⟨1, data⟩ { c with localWindow := c.localWindow - UInt32.ofNat data.length })
    (reject : ∀ what, fail (.thrown what) c) :
    WP (parseChannelExtendedData payload) c post fail := by
  simp only [parseChannelExtendedData, consumeLocalWindow, WP.bind_iff, WP.get_iff,
    WP.failIf_iff, WP.withLocal_iff, WP.onLocal_iff, WP.onOuter_iff, WP.modify_iff, WP.pure_iff]
  refine ⟨fun _ => reject _, fun hopen => ⟨fun _ => reject _, fun hhead => ?_⟩⟩
  refine wp_readUint32 (fun recipient _ h1 => ?_) (fun _ _ => reject _)
  refine ⟨fun _ => reject _, fun hid => ?_⟩
  refine wp_readUint32 (fun dataType _ h2 => ?_) (fun _ _ => reject _)
  refine ⟨fun _ => reject _, fun htype => ?_⟩
  refine wp_readString (fun data _ _ h3 => ?_) (fun _ _ _ _ => reject _)
  rw [Decidable.not_not.mp htype] at h2 ⊢
  refine ⟨fun _ => reject _, fun hend => ⟨fun _ => reject _, fun hmax => ⟨fun _ => reject _,
    fun hwin => ok data (by simpa using hopen) ?_ (by omega) (by omega)⟩⟩⟩
  rw [eq_cons_drop_one hhead, h1, h2, h3, drop_eq_nil_of_end hend, Decidable.not_not.mp hid]
  simp [extendedData]

theorem wp_parseChannelEof {post : Unit → Channel → Prop}
    (ok : c.isOpen = true → c.remoteEofReceived = false →
      payload = recipientOnly Message.channelEof c.localId →
      post () { c with remoteEofReceived := true })
    (reject : ∀ what, fail (.thrown what) c) :
    WP (parseChannelEof payload) c post fail := by
  simp only [parseChannelEof, WP.bind_iff, WP.get_iff, WP.failIf_iff, WP.withLocal_iff,
    WP.onLocal_iff, WP.onOuter_iff, WP.modify_iff]
  refine ⟨fun _ => reject _, fun hopen => ⟨fun _ => reject _, fun heof => ⟨fun _ => reject _,
    fun hhead => ?_⟩⟩⟩
  refine wp_readUint32 (fun recipient _ h1 => ?_) (fun _ _ => reject _)
  refine ⟨fun _ => reject _, fun hid => ⟨fun _ => reject _,
    fun hend => ok (by simpa using hopen) (by simpa using heof) ?_⟩⟩
  rw [eq_cons_drop_one hhead, h1, drop_eq_nil_of_end hend, Decidable.not_not.mp hid]
  simp [recipientOnly]

theorem wp_parseChannelClose {post : Unit → Channel → Prop}
    (ok : c.isOpen = true → c.remoteCloseReceived = false →
      payload = recipientOnly Message.channelClose c.localId →
      post () { c with remoteCloseReceived := true })
    (reject : ∀ what, fail (.thrown what) c) :
    WP (parseChannelClose payload) c post fail := by
  simp only [parseChannelClose, WP.bind_iff, WP.get_iff, WP.failIf_iff, WP.withLocal_iff,
    WP.onLocal_iff, WP.onOuter_iff, WP.modify_iff]
  refine ⟨fun _ => reject _, fun hopen => ⟨fun _ => reject _, fun hclose => ⟨fun _ => reject _,
    fun hhead => ?_⟩⟩⟩
  refine wp_readUint32 (fun recipient _ h1 => ?_) (fun _ _ => reject _)
  refine ⟨fun _ => reject _, fun hid => ⟨fun _ => reject _,
    fun hend => ok (by simpa using hopen) (by simpa using hclose) ?_⟩⟩
  rw [eq_cons_drop_one hhead, h1, drop_eq_nil_of_end hend, Decidable.not_not.mp hid]
  simp [recipientOnly]

/-- The byte of the reply flag is there when it is read, so the parser does not fault. -/
theorem wp_parseExitStatus {post : ChannelExitStatus → Channel → Prop}
    (ok : ∀ wantReply status, c.isOpen = true → c.exitStatusReceived = false →
      payload = exitStatus c.localId wantReply status →
      post ⟨status, wantReply != 0⟩ { c with exitStatus := status, exitStatusReceived := true })
    (reject : ∀ what, fail (.thrown what) c) :
    WP (parseExitStatus payload) c post fail := by
  simp only [parseExitStatus, WP.bind_iff, WP.get_iff, WP.failIf_iff, WP.withLocal_iff,
    WP.onLocal_iff, WP.onOuter_iff, WP.modify_iff, WP.pure_iff, wp_sizeSub, wp_byteAt]
  refine ⟨fun _ => reject _, fun hopen => ⟨fun _ => reject _, fun hexit => ⟨fun _ => reject _,
    fun hhead => ?_⟩⟩⟩
  refine wp_readUint32 (fun recipient _ h1 => ?_) (fun _ _ => reject _)
  refine ⟨fun _ => reject _, fun hid => ?_⟩
  refine wp_readString (fun name _ hle h2 => ?_) (fun _ _ _ _ => reject _)
  refine ⟨fun _ => reject _, fun hname => ⟨fun _ => ⟨fun _ => reject _, fun hone =>
    ⟨fun wantReply hbyte => ?_, fun hnone => ?_⟩⟩, fun hn => absurd hle hn⟩⟩
  · refine wp_readUint32 (fun status _ h3 => ?_) (fun _ _ => reject _)
    refine ⟨fun _ => reject _, fun hend => ok wantReply status (by simpa using hopen)
      (by simpa using hexit) ?_⟩
    rw [eq_cons_drop_one hhead, h1, h2, drop_eq_getElem_cons hbyte, h3, drop_eq_nil_of_end hend,
      Decidable.not_not.mp hid, Decidable.not_not.mp hname]
    simp [exitStatus]
  · rw [List.getElem?_eq_none_iff] at hnone
    omega

/-- A request that is returned stands in the payload as its format says. -/
theorem parseGlobalRequest_ok {gr : GlobalRequest} (h : parseGlobalRequest payload = .ok gr) :
    ∃ wantReply, payload = globalRequest gr.requestName wantReply gr.requestData ∧
      gr.wantReply = (wantReply != 0) ∧ gr.requestName.length < 4294967296 := by
  refine evalOn_of_wp (fun gr : GlobalRequest => ∃ wantReply,
    payload = globalRequest gr.requestName wantReply gr.requestData ∧
      gr.wantReply = (wantReply != 0) ∧ gr.requestName.length < 4294967296) ?_ h
  simp only [WP.bind_iff, WP.get_iff, WP.failIf_iff, WP.set_iff, WP.pure_iff, wp_sizeSub,
    wp_byteAt, wp_copyRange]
  refine ⟨fun _ => trivial, fun hhead => ?_⟩
  refine wp_readString (fun name hname hle h1 => ?_) (fun _ _ _ _ => trivial)
  refine ⟨fun _ => ⟨fun _ => trivial, fun _ => ⟨fun wantReply hbyte => ⟨fun _ =>
    ⟨wantReply, ?_, rfl, hname⟩, fun _ => trivial⟩, fun _ => trivial⟩⟩, fun _ => trivial⟩
  rw [← List.length_drop, List.take_length]
  calc payload = Message.globalRequest :: payload.drop 1 := eq_cons_drop_one hhead
    _ = _ := by rw [h1, drop_eq_getElem_cons hbyte]; rfl

/-! ### The format is accepted -/

/-- The fields of a message in its format are found where the format puts them. -/
theorem parseWindowAdjust_windowAdjust {n : UInt32} (hopen : c.isOpen = true) (hn : n ≠ 0)
    (hfit : c.remoteWindow.toNat + n.toNat < 4294967296) :
    (parseWindowAdjust (windowAdjust c.localId n)).run c =
      .ok () { c with remoteWindow := c.remoteWindow + n } := by
  obtain ⟨h1, d1⟩ := readUint32_of_drop
    (show (windowAdjust c.localId n).drop 1 = encodeUint32 c.localId ++ encodeUint32 n from rfl)
  obtain ⟨h2, d2⟩ := readUint32_of_drop
    (show (windowAdjust c.localId n).drop 5 = encodeUint32 n ++ [] by simpa using d1)
  apply WP.run_eq
  simp only [parseWindowAdjust, WP.bind_iff, WP.get_iff, WP.failIf_iff, WP.withLocal_iff,
    WP.onLocal_iff, WP.onOuter_iff, WP.modify_iff, WP.ok_iff h1, WP.ok_iff h2, gt_uint32Max_sub_iff]
  simp [windowAdjust, hopen, hn]
  omega

theorem parseChannelData_channelData {data : Bytes} (hopen : c.isOpen = true)
    (hmax : data.length ≤ c.localMaxPacket.toNat) (hwin : data.length ≤ c.localWindow.toNat) :
    (parseChannelData (channelData c.localId data)).run c =
      .ok data { c with localWindow := c.localWindow - UInt32.ofNat data.length } := by
  have hlt := Nat.lt_of_le_of_lt hwin c.localWindow.toNat_lt
  obtain ⟨h1, d1⟩ := readUint32_of_drop
    (show (channelData c.localId data).drop 1 =
      encodeUint32 c.localId ++ encodeString data from rfl)
  obtain ⟨h2, d2⟩ := readString_of_drop hlt
    (show (channelData c.localId data).drop 5 = encodeString data ++ [] by simpa using d1)
  apply WP.run_eq
  simp only [parseChannelData, consumeLocalWindow, WP.bind_iff, WP.get_iff, WP.failIf_iff,
    WP.withLocal_iff, WP.onLocal_iff, WP.onOuter_iff, WP.modify_iff, WP.pure_iff, WP.ok_iff h1,
    WP.ok_iff h2]
  simp [channelData, hopen]
  omega

/-- A confirmation with a large enough packet size opens a closed channel. -/
theorem parseOpenConfirmation_openConfirmation {sender window maxPacket : UInt32}
    (hclosed : c.isOpen = false) (hmax : minMaxPacketSize ≤ maxPacket) :
    (parseOpenConfirmation (openConfirmation c.localId sender window maxPacket)).run c =
      .ok () { c with
        remoteId := sender
        remoteWindow := window
        remoteMaxPacket := maxPacket
        isOpen := true } := by
  obtain ⟨h1, d1⟩ := readUint32_of_drop
    (show (openConfirmation c.localId sender window maxPacket).drop 1 = encodeUint32 c.localId ++
      (encodeUint32 sender ++ (encodeUint32 window ++ encodeUint32 maxPacket)) from rfl)
  obtain ⟨h2, d2⟩ := readUint32_of_drop d1
  obtain ⟨h3, d3⟩ := readUint32_of_drop d2
  obtain ⟨h4, d4⟩ := readUint32_of_drop (d3.trans (List.append_nil _).symm)
  apply WP.run_eq
  simp only [parseOpenConfirmation, WP.bind_iff, WP.get_iff, WP.failIf_iff, WP.withLocal_iff,
    WP.onLocal_iff, WP.onOuter_iff, WP.modify_iff, WP.ok_iff h1, WP.ok_iff h2, WP.ok_iff h3,
    WP.ok_iff h4]
  simp [openConfirmation, hclosed, hmax]

theorem parseOpenFailure_openFailure {failure : ChannelOpenFailure} (hclosed : c.isOpen = false)
    (hdescription : failure.description.length < 4294967296)
    (hlanguage : failure.language.length < 4294967296) :
    (parseOpenFailure (openFailure c.localId failure)).run c = .ok failure c := by
  obtain ⟨h1, d1⟩ := readUint32_of_drop
    (show (openFailure c.localId failure).drop 1 = encodeUint32 c.localId ++
      (encodeUint32 failure.reasonCode ++
        (encodeString failure.description ++ encodeString failure.language)) from rfl)
  obtain ⟨h2, d2⟩ := readUint32_of_drop d1
  obtain ⟨h3, d3⟩ := readString_of_drop hdescription d2
  obtain ⟨h4, d4⟩ := readString_of_drop hlanguage (d3.trans (List.append_nil _).symm)
  apply WP.run_eq
  simp only [parseOpenFailure, WP.bind_iff, WP.get_iff, WP.failIf_iff, WP.withLocal_iff,
    WP.onLocal_iff, WP.pure_iff, WP.ok_iff h1, WP.ok_iff h2, WP.ok_iff h3, WP.ok_iff h4]
  simp [openFailure, hclosed]
  omega

/-- The recipient of a message that carries nothing else. -/
theorem readUint32_recipientOnly (number : UInt8) (recipient : UInt32) :
    (readUint32 (recipientOnly number recipient)).run 1 = .ok recipient 5 :=
  (readUint32_of_drop (show (recipientOnly number recipient).drop 1 = encodeUint32 recipient ++ []
    from (List.append_nil _).symm)).1

theorem validateChannelReply_recipientOnly {number : UInt8} {expected : String} :
    (validateChannelReply number expected (recipientOnly number c.localId)).run c = .ok () c := by
  apply WP.run_eq
  simp only [validateChannelReply, WP.bind_iff, WP.get_iff, WP.failIf_iff, WP.withLocal_iff,
    WP.onLocal_iff, WP.ok_iff (readUint32_recipientOnly number c.localId)]
  simp [recipientOnly]

theorem parseChannelEof_recipientOnly (hopen : c.isOpen = true)
    (heof : c.remoteEofReceived = false) :
    (parseChannelEof (recipientOnly Message.channelEof c.localId)).run c =
      .ok () { c with remoteEofReceived := true } := by
  apply WP.run_eq
  simp only [parseChannelEof, WP.bind_iff, WP.get_iff, WP.failIf_iff, WP.withLocal_iff,
    WP.onLocal_iff, WP.onOuter_iff, WP.modify_iff, WP.ok_iff (readUint32_recipientOnly _ c.localId)]
  simp [recipientOnly, hopen, heof]

theorem parseChannelClose_recipientOnly (hopen : c.isOpen = true)
    (hclose : c.remoteCloseReceived = false) :
    (parseChannelClose (recipientOnly Message.channelClose c.localId)).run c =
      .ok () { c with remoteCloseReceived := true } := by
  apply WP.run_eq
  simp only [parseChannelClose, WP.bind_iff, WP.get_iff, WP.failIf_iff, WP.withLocal_iff,
    WP.onLocal_iff, WP.onOuter_iff, WP.modify_iff, WP.ok_iff (readUint32_recipientOnly _ c.localId)]
  simp [recipientOnly, hopen, hclose]

theorem parseChannelExtendedData_extendedData {data : Bytes} (hopen : c.isOpen = true)
    (hmax : data.length ≤ c.localMaxPacket.toNat) (hwin : data.length ≤ c.localWindow.toNat) :
    (parseChannelExtendedData (extendedData c.localId 1 data)).run c =
      .ok ⟨1, data⟩ { c with localWindow := c.localWindow - UInt32.ofNat data.length } := by
  have hlt := Nat.lt_of_le_of_lt hwin c.localWindow.toNat_lt
  obtain ⟨h1, d1⟩ := readUint32_of_drop
    (show (extendedData c.localId 1 data).drop 1 =
      encodeUint32 c.localId ++ (encodeUint32 1 ++ encodeString data) from rfl)
  obtain ⟨h2, d2⟩ := readUint32_of_drop d1
  obtain ⟨h3, d3⟩ := readString_of_drop hlt (d2.trans (List.append_nil _).symm)
  apply WP.run_eq
  simp only [parseChannelExtendedData, consumeLocalWindow, WP.bind_iff, WP.get_iff,
    WP.failIf_iff, WP.withLocal_iff, WP.onLocal_iff, WP.onOuter_iff, WP.modify_iff, WP.pure_iff,
    WP.ok_iff h1, WP.ok_iff h2, WP.ok_iff h3]
  simp [extendedData, hopen]
  omega

/-- The flag stands behind the eleven bytes of the name. -/
theorem parseExitStatus_exitStatus {wantReply : UInt8} {status : UInt32} (hopen : c.isOpen = true)
    (hexit : c.exitStatusReceived = false) :
    (parseExitStatus (exitStatus c.localId wantReply status)).run c =
      .ok ⟨status, wantReply != 0⟩
        { c with exitStatus := status, exitStatusReceived := true } := by
  obtain ⟨h1, d1⟩ := readUint32_of_drop
    (show (exitStatus c.localId wantReply status).drop 1 = encodeUint32 c.localId ++
      (encodeString (ascii "exit-status") ++ (wantReply :: encodeUint32 status)) from rfl)
  obtain ⟨h2, d2⟩ := readString_of_drop (by decide) d1
  have hbyte : (exitStatus c.localId wantReply status)[1 + 4 + 4 + (ascii "exit-status").length]? =
      some wantReply := by
    rw [← List.head?_drop, d2]
    rfl
  obtain ⟨h3, d3⟩ := readUint32_of_drop (show (exitStatus c.localId wantReply status).drop
      (1 + 4 + 4 + (ascii "exit-status").length + 1) = encodeUint32 status ++ [] by
    rw [← List.drop_drop, d2, List.append_nil]
    rfl)
  have hlen : (exitStatus c.localId wantReply status).length = 25 := by
    simp [exitStatus]
    decide
  have hhead : (exitStatus c.localId wantReply status).head? = some Message.channelRequest := rfl
  have hname : (ascii "exit-status").length = 11 := by decide
  simp only [hname] at h2 h3 hbyte
  apply WP.run_eq
  simp only [parseExitStatus, WP.bind_iff, WP.get_iff, WP.failIf_iff, WP.withLocal_iff,
    WP.onLocal_iff, WP.onOuter_iff, WP.modify_iff, WP.pure_iff, wp_sizeSub, wp_byteAt, WP.set_iff,
    WP.ok_iff h1, WP.ok_iff h2, WP.ok_iff h3, hbyte, hlen, hhead]
  simp [hopen, hexit]

/-- A name of any length that can be announced is found again. -/
theorem parseGlobalRequest_globalRequest {name data : Bytes} {wantReply : UInt8}
    (hname : name.length < 4294967296) :
    parseGlobalRequest (globalRequest name wantReply data) =
      .ok ⟨name, wantReply != 0, data⟩ := by
  obtain ⟨h1, d1⟩ := readString_of_drop hname
    (show (globalRequest name wantReply data).drop 1 = encodeString name ++ (wantReply :: data)
      from rfl)
  have hbyte : (globalRequest name wantReply data)[1 + 4 + name.length]? = some wantReply := by
    rw [← List.head?_drop, d1]
    rfl
  have hrest : (globalRequest name wantReply data).drop (1 + 4 + name.length + 1) = data := by
    rw [← List.drop_drop, d1]
    rfl
  have hlen : (globalRequest name wantReply data).length =
      1 + 4 + name.length + 1 + data.length := by
    simp [globalRequest]
    omega
  refine evalOn_eq_ok.mpr ⟨1 + 4 + name.length + 1, WP.run_eq ?_⟩
  simp only [WP.bind_iff, WP.get_iff, WP.failIf_iff, WP.set_iff, WP.pure_iff, wp_sizeSub,
    wp_byteAt, wp_copyRange, WP.ok_iff h1, hbyte, hrest, hlen]
  simp [globalRequest]
  omega

/-- A grant is made exactly when it is positive and does not wrap the local window. -/
theorem createWindowAdjust_ok {n : UInt32} :
    createWindowAdjust c n = .ok payload ↔ c.isOpen = true ∧ n ≠ 0 ∧
      c.localWindow.toNat + n.toNat < 4294967296 ∧ payload = windowAdjust c.remoteId n := by
  simp only [createWindowAdjust, bind_eq_ok, failIf_eq_ok, pure_eq_ok, gt_uint32Max_sub_iff,
    windowAdjust]
  simp

/-- On an open channel, a message is made exactly for data that the server has room for. -/
theorem createChannelData_ok {data : Bytes} :
    createChannelData c data = .ok payload ↔ c.isOpen = true ∧ c.localCloseSent = false ∧
      data ≠ [] ∧ data.length ≤ c.remoteWindow.toNat ∧
      data.length ≤ c.remoteMaxPacket.toNat ∧ payload = channelData c.remoteId data := by
  have hw := c.remoteWindow.toNat_lt
  simp only [createChannelData, bind_eq_ok, failIf_eq_ok, appendString_ok, channelData]
  simp
  omega

end SshClient.Connection
