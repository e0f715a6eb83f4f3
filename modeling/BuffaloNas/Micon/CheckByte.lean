import BuffaloNas.Micon.Line

/-! The check byte of a frame, and the errors on the line that `send_cmd` notices by it. -/
namespace BuffaloNas.Micon
open Interaction Program

variable {m frame response cmdbytes : Bytes}

/-! ### The check byte -/

/-- There is one byte that completes a message, and it is the check byte. -/
theorem calcChecksum_append_iff (m : Bytes) (b : UInt8) :
    calcChecksum (m ++ [b]) = 0 ↔ b = calcCheckByte m := by
  constructor
  · intro h
    rw [calcChecksum_eq, byteSum_append, byteSum_cons, byteSum_nil] at h
    have hb := b.toNat_lt
    have hcheck := calcCheckByte_toNat m
    exact UInt8.toNat_inj.mp (by omega)
  · rintro rfl
    exact calcChecksum_checked m

/-- A frame with one byte changed, be it the check byte, has another checksum. -/
theorem calcChecksum_of_oneOff (h : OneOff (checked m) frame) : calcChecksum frame ≠ 0 := by
  have hne := byteSum_of_oneOff h
  rw [← calcChecksum_eq, ← calcChecksum_eq, calcChecksum_checked] at hne
  exact hne

theorem ne_nil_of_oneOff (h : OneOff (checked m) frame) : frame ≠ [] := by
  rintro rfl
  have hlen : (checked m).length = 0 := h.1
  rw [checked, List.length_append] at hlen
  cases hlen

/-! ### `send_cmd` -/

/-- On every port, in every attempt: after this response `send_cmd` sends the preamble, and goes on
with the attempts that are left. -/
def Retries (response : Bytes) : Prop :=
  ∀ (σ : Type) (d : Device PortOp PortOp.Answer PyError σ) (cmdbytes : Bytes) (x : ℕ) (s t u : σ),
    (sendBytes cmdbytes).run d s = (.ok (), t) → getResponse.run d t = (.ok response, u) →
      (sendCmdLoop cmdbytes (x + 1)).run d s =
        (do sendPreamble; sendCmdLoop cmdbytes x).run d u

theorem retries_of_calcChecksum (hne : response ≠ []) (hc : calcChecksum response ≠ 0) :
    Retries response := by
  intro σ d cmdbytes x s t u hw hr
  have hlen : response.length ≠ 0 := fun h => hne (List.length_eq_zero_iff.mp h)
  rw [sendCmdLoop, run_bind, hw, andThen_ok, run_bind, hr, andThen_ok, run_ite, if_neg hlen,
    run_ite, if_neg hc]

/-- The check byte is the only byte that makes the checksum of a message zero; so a frame of which
exactly one byte has changed fails the test of `send_cmd`. -/
theorem checkByte_detects :
    (∀ (m : Bytes) (b : UInt8), calcChecksum (m ++ [b]) = 0 ↔ b = calcCheckByte m) ∧
      ∀ m frame : Bytes, OneOff (m ++ [calcCheckByte m]) frame →
        calcChecksum frame ≠ 0 ∧ Retries frame := by
  constructor
  · exact calcChecksum_append_iff
  · intro m frame h
    have hc := calcChecksum_of_oneOff h
    exact ⟨hc, retries_of_calcChecksum (ne_nil_of_oneOff h) hc⟩

/-- One bit of the address of a read command. -/
theorem checkByte_detects_read :
    OneOff [0x80, 0x03, 0x7d] [0x80, 0x13, 0x7d] ∧ calcChecksum [0x80, 0x13, 0x7d] ≠ 0 ∧
      Retries [0x80, 0x13, 0x7d] := by
  have hone : OneOff ([0x80, 0x03] ++ [calcCheckByte [0x80, 0x03]]) [0x80, 0x13, 0x7d] := by decide
  exact ⟨by decide, checkByte_detects.2 [0x80, 0x03] [0x80, 0x13, 0x7d] hone⟩

end BuffaloNas.Micon
