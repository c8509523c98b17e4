import PiDaemon.App.Payload

/-!
# Answers to commands

What `handle_payload_command` answers, and what it has done when it answers so. An
opcode it knows is acknowledged, whatever the length of the frame: a frame that is too
short for an argument has the argument 0, and `active_experiment_id` takes the low byte
of its argument, which is all the field holds.
-/

namespace PiDaemon.App

open Base Proto

theorem handlePayloadCommand_known {s : SimState} {f : Inbound} {c : Command} (padding : UInt16)
    (hlen : 1 ≤ f.len) (hc : Command.ofCode? f.opcode = some c) :
    handlePayloadCommand s f padding = (s.perform f.arg c,
      [.toNetwork ⟨apidCmdRespTx, [f.opcode, statusAck]⟩, pushState (s.perform f.arg c) padding]) := by
  rw [handlePayloadCommand, if_neg (by omega), hc]
  rfl

theorem handlePayloadCommand_unknown {s : SimState} {f : Inbound} (padding : UInt16)
    (hlen : 1 ≤ f.len) (hc : Command.ofCode? f.opcode = none) :
    handlePayloadCommand s f padding =
      (s, [.toNetwork ⟨apidCmdRespTx, [f.opcode, statusNack]⟩, pushState s padding]) := by
  rw [handlePayloadCommand, if_neg (by omega), hc]
  rfl

/-- The argument a frame carries: its four bytes, or 0 if it has fewer than five. -/
def Carries (f : Inbound) (arg : UInt32) : Prop :=
  if 5 ≤ f.len then f.mem.load 1 4 = be32 arg else arg = 0

theorem carries_arg (f : Inbound) : Carries f f.arg := by
  unfold Carries Inbound.arg
  split_ifs
  · exact (f.mem.be32_be32At 1).symm
  · rfl

/-- What carrying out a command comes to: the fields it sets, to which values, and that
everything else stays. -/
def CarriedOut (s s' : SimState) (arg : UInt32) : Command → Prop
  | .grantDceAuthority => s' = { s with dceAuthorityHeld := 1 }
  | .revokeDceAuthority => s' = { s with dceAuthorityHeld := 0 }
  | .timeSyncPing => s' = { s with metMs := UInt64.ofNat arg.toNat }
  | .runExperiment =>
    s' = { s with opState := 0x01, activeExperimentId := UInt8.ofNat (arg.toNat % 256) }
  | .abortExperiment => s' = { s with opState := 0x00, activeExperimentId := 0 }
  | .emergencyHalt => s' = { s with opState := 0xFF }

theorem carriedOut_perform (s : SimState) (arg : UInt32) (c : Command) :
    CarriedOut s (s.perform arg c) arg c := by
  cases c with
  | timeSyncPing =>
    have : arg.toUInt64 = UInt64.ofNat arg.toNat := by
      apply UInt64.toNat_inj.mp
      have := arg.toNat_lt
      rw [UInt32.toNat_toUInt64, UInt64.toNat_ofNat', Nat.mod_eq_of_lt (by omega)]
    exact congrArg (fun met => { s with metMs := met }) this
  | runExperiment =>
    have : arg.toUInt8 = UInt8.ofNat (arg.toNat % 256) := by
      apply UInt8.toNat_inj.mp
      rw [UInt32.toNat_toUInt8, UInt8.toNat_ofNat', Nat.mod_mod]
    exact congrArg (fun id => { s with opState := 0x01, activeExperimentId := id }) this
  | grantDceAuthority | revokeDceAuthority | abortExperiment | emergencyHalt => rfl

/-- Every command is answered: an ACK if it was carried out with the argument of its
frame, and otherwise, for an unknown opcode, a NACK that leaves the state as it was. -/
theorem command_answered (s : SimState) (f : Inbound) (padding : UInt16) (hlen : 1 ≤ f.len) :
    let out := handlePayloadCommand s f padding
    ∃ status, out.2 = [.toNetwork ⟨apidCmdRespTx, [f.opcode, status]⟩, pushState out.1 padding] ∧
      ((status = statusAck ∧ ∃ c arg, c.code = f.opcode ∧ Carries f arg ∧
          CarriedOut s out.1 arg c) ∨
        (status = statusNack ∧ (∀ c : Command, c.code ≠ f.opcode) ∧ out.1 = s)) := by
  intro out
  rcases hc : Command.ofCode? f.opcode with _ | c
  · have hout := handlePayloadCommand_unknown (s := s) padding hlen hc
    refine ⟨statusNack, by simp only [out, hout], .inr ⟨rfl, fun c hcode => ?_, by simp only [out, hout]⟩⟩
    rw [← hcode, Command.ofCode?_code] at hc
    exact Option.some_ne_none _ hc
  · have hout := handlePayloadCommand_known (s := s) padding hlen hc
    refine ⟨statusAck, by simp only [out, hout], .inl ⟨rfl, c, f.arg, Command.code_of_ofCode? hc,
      carries_arg f, ?_⟩⟩
    simp only [out, hout]
    exact carriedOut_perform s f.arg c

def Inbound.ofBytes (bs : List UInt8) : Inbound := ⟨fun k => bs.getD k 0, bs.length⟩

/-- A `TIME_SYNC_PING` with an argument. -/
theorem command_answered_sync :
    let out := handlePayloadCommand .boot (.ofBytes [0x03, 0, 0, 0x10, 0x01]) 0
    out.1 = { SimState.boot with metMs := 0x1001 } ∧
      out.2 = [.toNetwork ⟨apidCmdRespTx, [0x03, statusAck]⟩, pushState out.1 0] := by
  intro out
  obtain ⟨status, hsent, ⟨rfl, c, arg, hcode, hcarries, hdone⟩ | ⟨-, hunknown, -⟩⟩ :=
    command_answered .boot (.ofBytes [0x03, 0, 0, 0x10, 0x01]) 0 (by decide)
  · have hknown := Command.ofCode?_code c
    rw [hcode] at hknown
    obtain rfl : Command.timeSyncPing = c := Option.some.inj hknown
    rw [Carries, if_pos (by decide)] at hcarries
    obtain rfl : 0x1001 = arg := Mem.be32At_of_load hcarries
    exact ⟨hdone, hsent⟩
  · exact absurd rfl (hunknown .timeSyncPing)

/-- A `TIME_SYNC_PING` without an argument sets the time to 0 and is acknowledged, and so
is a `RUN_EXPERIMENT` of experiment 257, which runs experiment 1. -/
theorem command_defaulted_narrowed :
    (let s := { SimState.boot with metMs := 5000 }
      let f := Inbound.ofBytes [0x03]
      f.len < 5 ∧ handlePayloadCommand s f 0 =
        (.boot, [.toNetwork ⟨apidCmdRespTx, [0x03, statusAck]⟩, pushState .boot 0])) ∧
    (let f := Inbound.ofBytes [0x20, 0, 0, 1, 1]
      let out := handlePayloadCommand .boot f 0
      f.mem.be32At 1 = 257 ∧ out.1.activeExperimentId = 1 ∧
        out.2 = [.toNetwork ⟨apidCmdRespTx, [0x20, statusAck]⟩, pushState out.1 0]) := by
  decide

end PiDaemon.App
