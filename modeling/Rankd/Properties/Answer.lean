import Rankd.Host.Answer

/-!
# The answer is consumed

The loop over the answer to the creation of the interface should take one message after the other,
and throw if one of them is an `NLMSG_ERROR` with an error. It takes none: it throws at an
`NLMSG_ERROR` that stands first, whatever it reports, and goes on forever at any other message.

* `reportsError_written`: which answers report an error
* `consumed_answerRound_iff`: the answers with which the loop does what is asked
-/

namespace Rankd.Host

open Infra Infra.Netlink

/-! ## What the loop is for -/

/-- The number behind the header, if the message has one. -/
def errorField (message : Bytes) : Option Nat :=
  if 20 ≤ message.length then some (fieldAt 16 4 message) else none

/-- An `NLMSG_ERROR` that is no acknowledgement. -/
def Refuses (message : Bytes) : Prop :=
  nlmsgType message = nlmsgError ∧ ∃ error, errorField message = some error ∧ error ≠ 0

def ReportsError (answer : Bytes) : Prop := ∃ message ∈ messages answer, Refuses message

instance (message : Bytes) : Decidable (Refuses message) :=
  decidable_of_iff (nlmsgType message = nlmsgError ∧ (errorField message).any (· ≠ 0) = true) (by
    unfold Refuses
    cases errorField message <;> simp)

instance (answer : Bytes) : Decidable (ReportsError answer) :=
  inferInstanceAs (Decidable (∃ message ∈ messages answer, Refuses message))

/-- The loop throws exactly if there is an error. -/
def Reported (answer : Bytes) (result : Except IosFailure Unit) : Prop :=
  result = .error .failure ↔ ReportsError answer

/-- The loop ends, and reports what the answer says. -/
def Consumed (round : Bytes → Round Bytes (Except IosFailure Unit)) (answer : Bytes) : Prop :=
  ∃ result, Round.Ends round answer result ∧ Reported answer result

theorem not_reportsError {answer : Bytes} (h : nlmsgOk answer = false) : ¬ ReportsError answer := by
  rintro ⟨message, hmem, -⟩
  rw [messages_of_not_ok h] at hmem
  cases hmem

/-! ## Answers that are written -/

/-- The error field is the first number of the payload. -/
theorem refuses_encode (m : Message) : Refuses m.encode ↔
    m.type.toNat = nlmsgError ∧ 4 ≤ m.payload.length ∧ ofBytesLE (m.payload.take 4) ≠ 0 := by
  have htype : nlmsgType m.encode = m.type.toNat := by
    have := m.nlmsgType_encode []
    rwa [List.append_nil] at this
  have hfield : fieldAt 16 4 m.encode = ofBytesLE (m.payload.take 4) := by
    rw [fieldAt, m.drop_encode]
  have hlength : 20 ≤ m.encode.length ↔ 4 ≤ m.payload.length := by
    rw [m.length_encode, Message.length]
    omega
  unfold Refuses errorField
  rw [htype, hfield, if_congr hlength rfl rfl]
  split_ifs with hlong
  · simp [hlong]
  · simp [hlong]

/-- Any number of messages, and bytes behind them. -/
theorem reportsError_written (ms : List Message) (trailing : Bytes) :
    ReportsError (ms.flatMap Message.padded ++ trailing) ↔
      (∃ m ∈ ms, m.type.toNat = nlmsgError ∧ 4 ≤ m.payload.length ∧
        ofBytesLE (m.payload.take 4) ≠ 0) ∨ ReportsError trailing := by
  simp only [ReportsError, messages_encode, List.mem_append, or_and_right, exists_or, List.mem_map,
    exists_exists_and_eq_and, refuses_encode]

/-! ## The loop of the constructor -/

section Constructor

variable {answer : Bytes}

theorem ends_of_not_ok (h : nlmsgOk answer = false) : Round.Ends answerRound answer (.ok ()) :=
  Round.ends_of_leaves (answerRound_of_not_ok h)

/-- A first message that is an `NLMSG_ERROR` makes the constructor throw. -/
theorem throws_of_error (h : nlmsgOk answer = true) (herror : nlmsgType answer = nlmsgError) :
    Round.Ends answerRound answer (.error .failure) :=
  Round.ends_of_leaves (answerRound_of_error h herror)

/-- With another first message the loop does not end. -/
theorem diverges_of_other (h : nlmsgOk answer = true) (hother : nlmsgType answer ≠ nlmsgError) :
    Round.Diverges answerRound answer :=
  Round.diverges_of_fixed (answerRound_of_other h hother)

/-- **The answers that are consumed** are those without a message, and those with an error somewhere
and an `NLMSG_ERROR` in front. -/
theorem consumed_answerRound_iff (answer : Bytes) :
    Consumed answerRound answer ↔
      nlmsgOk answer = false ∨ nlmsgType answer = nlmsgError ∧ ReportsError answer := by
  cases hok : nlmsgOk answer with
  | false =>
    have hsilent := not_reportsError hok
    exact iff_of_true ⟨.ok (), ends_of_not_ok hok, iff_of_false nofun hsilent⟩ (Or.inl rfl)
  | true =>
    rw [or_iff_right (by simp)]
    constructor
    · rintro ⟨result, hends, hresult⟩
      by_cases herror : nlmsgType answer = nlmsgError
      · have hthrows := Round.ends_unique hends (throws_of_error hok herror)
        exact ⟨herror, hresult.mp hthrows⟩
      · exact absurd hends (diverges_of_other hok herror).not_ends
    · rintro ⟨herror, hreports⟩
      exact ⟨.error .failure, throws_of_error hok herror, iff_of_true rfl hreports⟩

/-- The acknowledgement of a request: the error is zero, and the header of the request follows. -/
def acknowledgement : Message where
  type := 2
  flags := 0x100
  seq := 7
  pid := 1
  payload := toBytesLE 4 0 ++ (toBytesLE 4 56 ++ toBytesLE 2 16 ++ toBytesLE 2 0x605 ++
    toBytesLE 4 7 ++ toBytesLE 4 1)
  length_lt := by decide

/-- A success is taken for a failure. -/
theorem acknowledgement_not_consumed : ¬ Consumed answerRound acknowledgement.encode := by
  have hok : nlmsgOk acknowledgement.encode = true := by decide
  have herror : nlmsgType acknowledgement.encode = nlmsgError := by decide
  have hsilent : ¬ ReportsError acknowledgement.encode := by decide
  rintro ⟨result, hends, hresult⟩
  exact hsilent (hresult.mp (Round.ends_unique hends (throws_of_error hok herror)))

end Constructor

end Rankd.Host
