import Rankd.Infra.Bytes

/-!
# Netlink messages

The framing that `linux/netlink.h` gives to the answer of a kernel. A message is a header of 16
bytes (length, type, flags, sequence number, port) and a payload, and its successor begins at the
next multiple of four. Numbers are little-endian.

* `messages` walks an answer from message to message, up to the first header that is not complete
* `messages_encode`: the walk finds the messages that were written, and goes on behind them
-/

namespace Rankd.Infra.Netlink

/-- A number at an offset. -/
def fieldAt (offset width : Nat) (bs : Bytes) : Nat := ofBytesLE ((bs.drop offset).take width)

/-! ## The macros -/

def nlmsgLen (bs : Bytes) : Nat := fieldAt 0 4 bs

def nlmsgType (bs : Bytes) : Nat := fieldAt 4 2 bs

/-- `NLMSG_ALIGN`. -/
def align (n : Nat) : Nat := (n + 3) / 4 * 4

/-- `NLMSG_OK`: a header, and a message that does not end behind the bytes. -/
def nlmsgOk (bs : Bytes) : Bool :=
  decide (16 ≤ bs.length ∧ 16 ≤ nlmsgLen bs ∧ nlmsgLen bs ≤ bs.length)

/-- `NLMSG_NEXT`. -/
def nlmsgNext (bs : Bytes) : Bytes := bs.drop (align (nlmsgLen bs))

theorem le_align (n : Nat) : n ≤ align n := by
  unfold align
  omega

theorem nlmsgOk_iff {bs : Bytes} :
    nlmsgOk bs = true ↔ 16 ≤ bs.length ∧ 16 ≤ nlmsgLen bs ∧ nlmsgLen bs ≤ bs.length := by
  simp [nlmsgOk]

theorem length_nlmsgNext_lt {bs : Bytes} (h : nlmsgOk bs = true) :
    (nlmsgNext bs).length < bs.length := by
  obtain ⟨hheader, hlen, -⟩ := nlmsgOk_iff.mp h
  have halign := le_align (nlmsgLen bs)
  rw [nlmsgNext, List.length_drop]
  omega

/-! ## The walk -/

def messagesFrom : Nat → Bytes → List Bytes
  | 0, _ => []
  | fuel + 1, bs =>
    if nlmsgOk bs then bs.take (nlmsgLen bs) :: messagesFrom fuel (nlmsgNext bs) else []

/-- The messages of an answer. Each takes a byte at least. -/
def messages (bs : Bytes) : List Bytes := messagesFrom bs.length bs

theorem messagesFrom_eq {fuel : Nat} {bs : Bytes} (h : bs.length ≤ fuel) :
    messagesFrom fuel bs = messages bs := by
  induction hn : bs.length using Nat.strong_induction_on generalizing bs fuel with
  | h n ih =>
    subst hn
    by_cases hok : nlmsgOk bs = true
    · have hlt := length_nlmsgNext_lt hok
      obtain ⟨fuel, rfl⟩ : ∃ f, fuel = f + 1 := ⟨fuel - 1, by omega⟩
      obtain ⟨n, hn⟩ : ∃ n, bs.length = n + 1 := ⟨bs.length - 1, by omega⟩
      rw [messages, hn, messagesFrom, messagesFrom, if_pos hok, if_pos hok,
        ih _ hlt (by omega) rfl, ih _ hlt (by omega) rfl]
    · have hnil : ∀ n, messagesFrom n bs = [] := by
        intro n
        cases n with
        | zero => rfl
        | succ n => rw [messagesFrom, if_neg hok]
      rw [messages, hnil, hnil]

theorem messages_of_ok {bs : Bytes} (h : nlmsgOk bs = true) :
    messages bs = bs.take (nlmsgLen bs) :: messages (nlmsgNext bs) := by
  have hlt := length_nlmsgNext_lt h
  obtain ⟨n, hn⟩ : ∃ n, bs.length = n + 1 := ⟨bs.length - 1, by omega⟩
  rw [messages, hn, messagesFrom, if_pos h, messagesFrom_eq (by omega)]

theorem messages_of_not_ok {bs : Bytes} (h : nlmsgOk bs = false) : messages bs = [] := by
  rw [messages]
  cases bs.length with
  | zero => rfl
  | succ n => rw [messagesFrom, h, if_neg Bool.false_ne_true]

/-! ## Writing -/

/-- A message whose length fits its field. -/
structure Message where
  type : UInt16
  flags : UInt16
  seq : UInt32
  pid : UInt32
  payload : Bytes
  length_lt : 16 + payload.length < 2 ^ 32

namespace Message

def length (m : Message) : Nat := 16 + m.payload.length

def encode (m : Message) : Bytes :=
  toBytesLE 4 m.length ++ (toBytesLE 2 m.type.toNat ++ (toBytesLE 2 m.flags.toNat ++
    (toBytesLE 4 m.seq.toNat ++ (toBytesLE 4 m.pid.toNat ++ m.payload))))

/-- With the bytes up to the successor. -/
def padded (m : Message) : Bytes := m.encode ++ List.replicate (align m.length - m.length) 0

variable (m : Message) (rest : Bytes)

@[simp] theorem length_encode : m.encode.length = m.length := by
  simp only [encode, List.length_append, length_toBytesLE, length]
  omega

@[simp] theorem length_padded : m.padded.length = align m.length := by
  have halign := le_align m.length
  rw [padded, List.length_append, length_encode, List.length_replicate]
  omega

theorem nlmsgLen_encode : nlmsgLen (m.encode ++ rest) = m.length := by
  have hlt := m.length_lt
  rw [nlmsgLen, fieldAt, List.drop_zero, encode, List.append_assoc,
    List.take_left' (length_toBytesLE _ _)]
  exact ofBytesLE_toBytesLE (by unfold length; norm_num at *; omega)

theorem nlmsgType_encode : nlmsgType (m.encode ++ rest) = m.type.toNat := by
  have hlt := m.type.toNat_lt
  rw [nlmsgType, fieldAt, encode, List.append_assoc, List.drop_left' (length_toBytesLE _ _),
    List.append_assoc, List.take_left' (length_toBytesLE _ _)]
  exact ofBytesLE_toBytesLE (by norm_num at *; omega)

def header : Bytes :=
  toBytesLE 4 m.length ++ (toBytesLE 2 m.type.toNat ++ (toBytesLE 2 m.flags.toNat ++
    (toBytesLE 4 m.seq.toNat ++ toBytesLE 4 m.pid.toNat)))

theorem length_header : m.header.length = 16 := by
  simp only [header, List.length_append, length_toBytesLE]

theorem encode_eq : m.encode = m.header ++ m.payload := by
  simp only [encode, header, List.append_assoc]

/-- `NLMSG_DATA`. -/
theorem drop_encode : m.encode.drop 16 = m.payload := by
  rw [encode_eq, List.drop_left' m.length_header]

theorem nlmsgOk_encode : nlmsgOk (m.encode ++ rest) = true := by
  rw [nlmsgOk_iff, nlmsgLen_encode, List.length_append, length_encode, length]
  omega

end Message

theorem messages_padded (m : Message) (rest : Bytes) :
    messages (m.padded ++ rest) = m.encode :: messages rest := by
  have hfront : m.padded ++ rest =
      m.encode ++ (List.replicate (align m.length - m.length) 0 ++ rest) := by
    rw [Message.padded, List.append_assoc]
  have hlen : nlmsgLen (m.padded ++ rest) = m.length := by rw [hfront, m.nlmsgLen_encode]
  have hok : nlmsgOk (m.padded ++ rest) = true := by rw [hfront, m.nlmsgOk_encode]
  rw [messages_of_ok hok, nlmsgNext, hlen, List.drop_left' m.length_padded, hfront,
    List.take_left' m.length_encode]

/-- The walk finds what was written, and goes on behind it. -/
theorem messages_encode (ms : List Message) (trailing : Bytes) :
    messages (ms.flatMap Message.padded ++ trailing) =
      ms.map Message.encode ++ messages trailing := by
  induction ms with
  | nil => rfl
  | cons m ms ih =>
    rw [List.flatMap_cons, List.append_assoc, messages_padded, ih, List.map_cons, List.cons_append]

end Rankd.Infra.Netlink
