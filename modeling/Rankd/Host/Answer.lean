import Rankd.Infra.Loop
import Rankd.Infra.Netlink

/-!
# The answer to the creation of the interface

The last loop of `Process::Process` outside of the simulation. It reads the answer of the kernel to
the `RTM_NEWLINK` request for `rank0`, whose acknowledgement is asked for by `NLM_F_ACK`.

The bytes from `response` on are the state, `received_bytes` is their number. `recv` has succeeded,
and the socket is closed on both ways out.

* `answerRound_of_error`, `answerRound_of_other`: what a round does with the message it finds
-/

namespace Rankd.Host

open Infra Infra.Netlink

/-- `std::ios_base::failure`. -/
inductive IosFailure
  | failure
  deriving DecidableEq

def nlmsgError : Nat := 2

/-- `((struct nlmsgerr*) response)->error`: the number at the beginning of the header. -/
def nlmsgerrError (response : Bytes) : Nat := fieldAt 0 4 response

/-- One round of `while (NLMSG_OK(response, received_bytes))`. -/
def answerRound (response : Bytes) : Round Bytes (Except IosFailure Unit) :=
  if nlmsgOk response then
    if nlmsgType response = nlmsgError then
      if nlmsgerrError response ≠ 0 then .leaves (.error .failure)
      else .continues response
    -- neither `response` nor `received_bytes` is assigned
    else .continues response
  else .leaves (.ok ())

/-! ## The rounds -/

variable {response : Bytes}

theorem answerRound_of_not_ok (h : nlmsgOk response = false) :
    answerRound response = .leaves (.ok ()) := by
  simp [answerRound, h]

/-- What is read as the error is the length of the message. -/
theorem nlmsgerrError_pos (h : nlmsgOk response = true) : 0 < nlmsgerrError response := by
  obtain ⟨-, hlen, -⟩ := nlmsgOk_iff.mp h
  unfold nlmsgLen at hlen
  unfold nlmsgerrError
  omega

theorem answerRound_of_error (h : nlmsgOk response = true)
    (herror : nlmsgType response = nlmsgError) :
    answerRound response = .leaves (.error .failure) := by
  have hpos := nlmsgerrError_pos h
  simp [answerRound, h, herror, hpos.ne']

theorem answerRound_of_other (h : nlmsgOk response = true)
    (hother : nlmsgType response ≠ nlmsgError) : answerRound response = .continues response := by
  simp [answerRound, h, hother]

end Rankd.Host
