import SshClient.Connection.Formats
import Mathlib.Logic.Relation
import Mathlib.Algebra.BigOperators.Group.List.Basic

/-!
# Flow control between two endpoints of this code

Two endpoints hold mirrored channels and exchange the payloads of `createChannelData`
and `createWindowAdjust` over two FIFO links. The windows of the sending side are
updated by the caller, as `run_interactive_shell` does, and those of the receiving
side by the parsers. Sends, grants and deliveries interleave freely.

One law per direction carries everything: what the sender may still send, plus the
grants on their way to it, plus the data on its way from it, is the receiver's window.
-/

namespace SshClient.Connection

open Control Relation

/-- Handle the oldest message on a link, by its number as the shell loop does. The
result is the data returned by `parseChannelData`. -/
def deliver (payload : Bytes) : Exec Channel (Option Bytes) :=
  if payload.head? = some Message.channelData then some <$> parseChannelData payload
  else (fun _ => none) <$> parseWindowAdjust payload

/-- One endpoint, the link that leads to it (oldest message first), the data it has
sent and the data returned to it. The last two record the run and are never read. -/
structure Endpoint where
  channel : Channel
  inbox : List Bytes := []
  sent : List Bytes := []
  returned : List Bytes := []

structure Duplex where
  a : Endpoint
  b : Endpoint

namespace Duplex

def swap (s : Duplex) : Duplex := ⟨s.b, s.a⟩

/-- The steps of endpoint `a`; `swap` makes them the steps of `b` as well. -/
inductive Step : Duplex → Duplex → Prop where
  | send {a b : Endpoint} {data payload : Bytes}
      (created : createChannelData a.channel data = .ok payload) :
      Step ⟨a, b⟩
        ⟨{ a with
            channel := { a.channel with
              remoteWindow := a.channel.remoteWindow - UInt32.ofNat data.length }
            sent := a.sent ++ [data] },
          { b with inbox := b.inbox ++ [payload] }⟩
  | grant {a b : Endpoint} {n : UInt32} {payload : Bytes}
      (created : createWindowAdjust a.channel n = .ok payload) :
      Step ⟨a, b⟩
        ⟨{ a with channel := { a.channel with localWindow := a.channel.localWindow + n } },
          { b with inbox := b.inbox ++ [payload] }⟩
  | deliver {a b : Endpoint} {payload : Bytes} {rest : List Bytes} {result : Option Bytes}
      {channel : Channel} (oldest : a.inbox = payload :: rest)
      (parsed : (Connection.deliver payload).run a.channel = .ok result channel) :
      Step ⟨a, b⟩
        ⟨{ a with
            channel := channel
            inbox := rest
            returned := a.returned ++ result.toList }, b⟩
  | swap {s t : Duplex} : Step s.swap t.swap → Step s t

/-- What `from` may send is what `to` announced, and nothing is on its way. -/
structure MirroredFrom (sender receiver : Endpoint) : Prop where
  isOpen : sender.channel.isOpen = true
  id : sender.channel.remoteId = receiver.channel.localId
  window : sender.channel.remoteWindow = receiver.channel.localWindow
  maxPacket : sender.channel.remoteMaxPacket = receiver.channel.localMaxPacket
  idle : receiver.inbox = [] ∧ sender.sent = [] ∧ receiver.returned = []

def Mirrored (s : Duplex) : Prop := MirroredFrom s.a s.b ∧ MirroredFrom s.b s.a

end Duplex

/-- The data messages of a link, in order. -/
def dataIn (link : List Bytes) : List Bytes := link.filterMap dataOf

def dataBytesIn (link : List Bytes) : Nat := ((dataIn link).map List.length).sum

def adjustBytesIn (link : List Bytes) : Nat := ((link.filterMap adjustOf).map UInt32.toNat).sum

@[simp] theorem dataBytesIn_append (l m : List Bytes) :
    dataBytesIn (l ++ m) = dataBytesIn l + dataBytesIn m := by
  simp [dataBytesIn, dataIn]

@[simp] theorem adjustBytesIn_append (l m : List Bytes) :
    adjustBytesIn (l ++ m) = adjustBytesIn l + adjustBytesIn m := by
  simp [adjustBytesIn]

section Link

variable (recipient n : UInt32) (data : Bytes) (link : List Bytes)

@[simp] theorem dataIn_cons_channelData :
    dataIn (channelData recipient data :: link) = data :: dataIn link := by
  simp [dataIn]

@[simp] theorem dataIn_cons_windowAdjust :
    dataIn (windowAdjust recipient n :: link) = dataIn link := by
  simp [dataIn]

@[simp] theorem dataBytesIn_cons_channelData :
    dataBytesIn (channelData recipient data :: link) = data.length + dataBytesIn link := by
  simp [dataBytesIn]

@[simp] theorem dataBytesIn_cons_windowAdjust :
    dataBytesIn (windowAdjust recipient n :: link) = dataBytesIn link := by
  simp [dataBytesIn]

@[simp] theorem adjustBytesIn_cons_channelData :
    adjustBytesIn (channelData recipient data :: link) = adjustBytesIn link := by
  simp [adjustBytesIn]

@[simp] theorem adjustBytesIn_cons_windowAdjust :
    adjustBytesIn (windowAdjust recipient n :: link) = n.toNat + adjustBytesIn link := by
  simp [adjustBytesIn]

@[simp] theorem dataIn_append (other : List Bytes) :
    dataIn (link ++ other) = dataIn link ++ dataIn other := by
  simp [dataIn]

@[simp] theorem dataIn_nil : dataIn [] = [] := rfl

@[simp] theorem dataBytesIn_nil : dataBytesIn [] = 0 := rfl

@[simp] theorem adjustBytesIn_nil : adjustBytesIn [] = 0 := rfl

end Link

namespace Duplex

/-- A message that the receiver of a link can handle, apart from its window. -/
def Expected (c : Channel) (payload : Bytes) : Prop :=
  (∃ data, payload = channelData c.localId data ∧ data.length ≤ c.localMaxPacket.toNat) ∨
    ∃ n, payload = windowAdjust c.localId n ∧ n ≠ 0

/-- The invariant of one direction. `window` is the law of flow control; the rest is
what makes every message on the link acceptable and accounts for its data. -/
structure Agrees (sender receiver : Endpoint) : Prop where
  isOpen : sender.channel.isOpen = true
  id : sender.channel.remoteId = receiver.channel.localId
  maxPacket : sender.channel.remoteMaxPacket = receiver.channel.localMaxPacket
  window : sender.channel.remoteWindow.toNat + adjustBytesIn sender.inbox +
    dataBytesIn receiver.inbox = receiver.channel.localWindow.toNat
  expected : ∀ payload ∈ receiver.inbox, Expected receiver.channel payload
  order : receiver.returned ++ dataIn receiver.inbox = sender.sent

def Inv (s : Duplex) : Prop := Agrees s.a s.b ∧ Agrees s.b s.a

theorem Mirrored.inv {s : Duplex} (h : Mirrored s) : Inv s := by
  have agrees : ∀ x y : Endpoint, MirroredFrom x y → MirroredFrom y x → Agrees x y := by
    intro x y hxy hyx
    refine ⟨hxy.isOpen, hxy.id, hxy.maxPacket, ?_, ?_, ?_⟩
    · simp [hxy.window, hyx.idle.1, hxy.idle.1]
    · simp [hxy.idle.1]
    · simp [hxy.idle]
  exact ⟨agrees _ _ h.1 h.2, agrees _ _ h.2 h.1⟩

/-! ### One step -/

theorem Inv.swap {s : Duplex} (h : Inv s) : Inv s.swap := ⟨h.2, h.1⟩

variable {a b : Endpoint}

/-- A new message on the link keeps the messages before it acceptable. -/
private theorem expected_append {c : Channel} {inbox : List Bytes} {payload : Bytes}
    (h : ∀ m ∈ inbox, Expected c m) (hp : Expected c payload) :
    ∀ m ∈ inbox ++ [payload], Expected c m := by
  intro m hm
  rcases List.mem_append.mp hm with hm | hm
  · exact h m hm
  · rwa [List.mem_singleton.mp hm]

theorem Inv.send {data payload : Bytes} (inv : Inv ⟨a, b⟩)
    (created : createChannelData a.channel data = .ok payload) :
    Inv ⟨{ a with
            channel := { a.channel with
              remoteWindow := a.channel.remoteWindow - UInt32.ofNat data.length }
            sent := a.sent ++ [data] },
          { b with inbox := b.inbox ++ [payload] }⟩ := by
  obtain ⟨hab, hba⟩ := inv
  obtain ⟨_, _, _, hwin, hmax, rfl⟩ := createChannelData_ok.mp created
  constructor
  · refine ⟨hab.isOpen, hab.id, hab.maxPacket, ?_, ?_, ?_⟩
    · have law := hab.window
      simp only [toNat_sub_length hwin, dataBytesIn_append, dataBytesIn_cons_channelData,
        dataBytesIn_nil] at law ⊢
      omega
    · refine expected_append hab.expected (.inl ⟨data, ?_, ?_⟩)
      · rw [hab.id]
      · rwa [← hab.maxPacket]
    · have order : b.returned ++ dataIn b.inbox = a.sent := hab.order
      simp [← order]
  · refine ⟨hba.isOpen, hba.id, hba.maxPacket, ?_, hba.expected, hba.order⟩
    simpa using hba.window

theorem Inv.grant {n : UInt32} {payload : Bytes} (inv : Inv ⟨a, b⟩)
    (created : createWindowAdjust a.channel n = .ok payload) :
    Inv ⟨{ a with channel := { a.channel with localWindow := a.channel.localWindow + n } },
          { b with inbox := b.inbox ++ [payload] }⟩ := by
  obtain ⟨hab, hba⟩ := inv
  obtain ⟨_, hn, hfit, rfl⟩ := createWindowAdjust_ok.mp created
  constructor
  · refine ⟨hab.isOpen, hab.id, hab.maxPacket, ?_, ?_, ?_⟩
    · simpa using hab.window
    · refine expected_append hab.expected (.inr ⟨n, ?_, hn⟩)
      rw [hab.id]
    · simpa using hab.order
  · refine ⟨hba.isOpen, hba.id, hba.maxPacket, ?_, hba.expected, hba.order⟩
    have law := hba.window
    simp only [toNat_add_of_lt hfit, adjustBytesIn_append, adjustBytesIn_cons_windowAdjust,
      adjustBytesIn_nil] at law ⊢
    omega

/-- The oldest message on a link is always accepted, with the natural-number effect on
the window it concerns. -/
theorem Inv.deliver_ok {payload : Bytes} {rest : List Bytes} (inv : Inv ⟨a, b⟩)
    (oldest : a.inbox = payload :: rest) :
    (∃ data, payload = channelData a.channel.localId data ∧
      data.length ≤ a.channel.localWindow.toNat ∧
      (deliver payload).run a.channel = .ok (some data) { a.channel with
        localWindow := a.channel.localWindow - UInt32.ofNat data.length }) ∨
    ∃ n, payload = windowAdjust a.channel.localId n ∧
      a.channel.remoteWindow.toNat + n.toNat < 4294967296 ∧
      (deliver payload).run a.channel = .ok none { a.channel with
        remoteWindow := a.channel.remoteWindow + n } := by
  obtain ⟨hab, hba⟩ := inv
  have toA := hba.window
  have fromA := hab.window
  simp only [oldest] at toA fromA
  rcases hba.expected payload (by simp [oldest]) with ⟨data, rfl, hmax⟩ | ⟨n, rfl, hn⟩
  · have hwin : data.length ≤ a.channel.localWindow.toNat := by
      rw [dataBytesIn_cons_channelData] at toA
      omega
    refine .inl ⟨data, rfl, hwin, ?_⟩
    have run := parseChannelData_channelData hab.isOpen hmax hwin
    simp only [deliver, channelData, List.head?_cons, if_true] at run ⊢
    exact (WP.run_eq (by rw [WP.map_iff, WP.ok_iff run]; exact ⟨rfl, rfl⟩))
  · have hfit : a.channel.remoteWindow.toNat + n.toNat < 4294967296 := by
      have hw := b.channel.localWindow.toNat_lt
      rw [adjustBytesIn_cons_windowAdjust] at fromA
      omega
    refine .inr ⟨n, rfl, hfit, ?_⟩
    have run := parseWindowAdjust_windowAdjust hab.isOpen hn hfit
    have hne : (windowAdjust a.channel.localId n).head? ≠ some Message.channelData := by
      simp [windowAdjust, Message.channelData, Message.channelWindowAdjust]
    simp only [deliver, if_neg hne]
    exact (WP.run_eq (by rw [WP.map_iff, WP.ok_iff run]; exact ⟨rfl, rfl⟩))

theorem Inv.deliver {payload : Bytes} {rest : List Bytes} {result : Option Bytes}
    {channel : Channel} (inv : Inv ⟨a, b⟩) (oldest : a.inbox = payload :: rest)
    (parsed : (Connection.deliver payload).run a.channel = .ok result channel) :
    Inv ⟨{ a with
            channel := channel
            inbox := rest
            returned := a.returned ++ result.toList }, b⟩ := by
  have toA := inv.2.window
  have fromA := inv.1.window
  have order := inv.2.order
  have later : ∀ m ∈ rest, Expected a.channel m :=
    fun m hm => inv.2.expected m (by simp [oldest, hm])
  simp only [oldest] at toA fromA order
  rcases inv.deliver_ok oldest with ⟨data, rfl, hwin, run⟩ | ⟨n, rfl, hfit, run⟩
  · rw [run] at parsed
    cases parsed
    refine ⟨⟨inv.1.isOpen, inv.1.id, inv.1.maxPacket, ?_, inv.1.expected, inv.1.order⟩,
      inv.2.isOpen, inv.2.id, inv.2.maxPacket, ?_, later, ?_⟩
    · simpa using fromA
    · rw [dataBytesIn_cons_channelData] at toA
      simp only [toNat_sub_length hwin]
      omega
    · simpa using order
  · rw [run] at parsed
    cases parsed
    refine ⟨⟨inv.1.isOpen, inv.1.id, inv.1.maxPacket, ?_, inv.1.expected, inv.1.order⟩,
      inv.2.isOpen, inv.2.id, inv.2.maxPacket, ?_, later, ?_⟩
    · rw [adjustBytesIn_cons_windowAdjust] at fromA
      simp only [toNat_add_of_lt hfit]
      omega
    · simpa using toA
    · simpa using order

theorem Step.inv {s t : Duplex} (step : Step s t) (inv : Inv s) : Inv t := by
  induction step with
  | send created => exact inv.send created
  | grant created => exact inv.grant created
  | deliver oldest parsed => exact inv.deliver oldest parsed
  | swap _ ih => exact (ih inv.swap).swap

theorem inv_of_run {s t : Duplex} (run : ReflTransGen Step s t) (inv : Inv s) : Inv t := by
  induction run with
  | refl => exact inv
  | tail _ step ih => exact step.inv ih

/-! ### Every run -/

/-- What one endpoint can do next is exact in natural numbers: no window wraps, and
handling the oldest message of its link does not throw. -/
structure Sound (e : Endpoint) : Prop where
  send : ∀ data payload, createChannelData e.channel data = .ok payload →
    (e.channel.remoteWindow - UInt32.ofNat data.length).toNat + data.length =
      e.channel.remoteWindow.toNat
  grant : ∀ n payload, createWindowAdjust e.channel n = .ok payload →
    (e.channel.localWindow + n).toNat = e.channel.localWindow.toNat + n.toNat
  deliver : ∀ payload rest, e.inbox = payload :: rest →
    ∃ result c, (Connection.deliver payload).run e.channel = .ok result c ∧
      result = dataOf payload ∧
      c.localWindow.toNat + dataBytesIn [payload] = e.channel.localWindow.toNat ∧
      c.remoteWindow.toNat = e.channel.remoteWindow.toNat + adjustBytesIn [payload]

theorem Inv.sound {s : Duplex} (inv : Inv s) : Sound s.a where
  send := by
    intro data payload created
    obtain ⟨_, _, _, hwin, _⟩ := createChannelData_ok.mp created
    rw [toNat_sub_length hwin]
    omega
  grant := by
    intro n payload created
    obtain ⟨_, _, hfit, _⟩ := createWindowAdjust_ok.mp created
    exact toNat_add_of_lt hfit
  deliver := by
    intro payload rest oldest
    rcases inv.deliver_ok oldest with ⟨data, rfl, hwin, run⟩ | ⟨n, rfl, hfit, run⟩
    · refine ⟨_, _, run, by simp, ?_, by simp⟩
      simp only [toNat_sub_length hwin, dataBytesIn_cons_channelData, dataBytesIn_nil]
      omega
    · refine ⟨_, _, run, by simp, by simp, ?_⟩
      simp [toNat_add_of_lt hfit]

/-- From mirrored channels, every interleaving keeps the law of both directions, can
continue without a throw or a wrap, and delivers each side's data in the order sent. -/
theorem flow_control_agreement {s t : Duplex} (mirrored : Mirrored s)
    (run : ReflTransGen Step s t) :
    (t.a.channel.remoteWindow.toNat + adjustBytesIn t.a.inbox + dataBytesIn t.b.inbox =
        t.b.channel.localWindow.toNat ∧
      t.b.channel.remoteWindow.toNat + adjustBytesIn t.b.inbox + dataBytesIn t.a.inbox =
        t.a.channel.localWindow.toNat) ∧
    (Sound t.a ∧ Sound t.b) ∧
    t.b.returned ++ dataIn t.b.inbox = t.a.sent ∧
    t.a.returned ++ dataIn t.a.inbox = t.b.sent := by
  have inv := inv_of_run run mirrored.inv
  exact ⟨⟨inv.1.window, inv.2.window⟩, ⟨inv.sound, inv.swap.sound⟩, inv.1.order, inv.2.order⟩

/-- Two mirrored channels whose links are empty. -/
def fresh : Duplex where
  a := { channel := { localId := 0, remoteId := 7, localWindow := 1048576, remoteWindow := 5
                      localMaxPacket := 32768, remoteMaxPacket := 40000, isOpen := true } }
  b := { channel := { localId := 7, remoteId := 0, localWindow := 5, remoteWindow := 1048576
                      localMaxPacket := 40000, remoteMaxPacket := 32768, isOpen := true } }

theorem fresh_mirrored : Mirrored fresh :=
  ⟨⟨rfl, rfl, rfl, rfl, rfl, rfl, rfl⟩, ⟨rfl, rfl, rfl, rfl, rfl, rfl, rfl⟩⟩

/-- Endpoint `b` grants while the data that fills its window is still on its way. -/
theorem flow_control_agreement_fresh :
    ∃ t, ReflTransGen Step fresh t ∧ t.b.returned = [ascii "hello"] ∧
      t.b.returned ++ dataIn t.b.inbox = t.a.sent ∧
      t.a.channel.remoteWindow.toNat + adjustBytesIn t.a.inbox + dataBytesIn t.b.inbox =
        t.b.channel.localWindow.toNat := by
  have run : ReflTransGen Step fresh _ :=
    ((ReflTransGen.refl.tail (.send
      (show createChannelData fresh.a.channel (ascii "hello") = .ok _ from rfl))).tail
      (.swap (t := ⟨_, _⟩) (.grant (n := 100) rfl))).tail
      (.swap (t := ⟨_, _⟩) (.deliver rfl rfl))
  have agreement := flow_control_agreement fresh_mirrored run
  exact ⟨_, run, rfl, agreement.2.2.1, agreement.1.1⟩

end Duplex

end SshClient.Connection
