import BuffaloNas.Interaction.LastWrite
import BuffaloNas.Micon.Line
import Mathlib.Data.Nat.Bitwise

/-! The micon as a bank of LED registers, and what a sequence of LED calls leaves in them. -/
namespace BuffaloNas.Micon
open Interaction Program

/-! ### The register bank and its answers -/

inductive LedKind
  | led
  | sata
  deriving DecidableEq

inductive LedReg
  | cpu
  | onoff (kind : LedKind)
  | blink (kind : LedKind)
  deriving DecidableEq

def LedReg.addr : LedReg → UInt8
  | cpu => cmdLedCpu
  | onoff .led => cmdLedOnoff
  | onoff .sata => sataLedOnoff
  | blink .led => cmdLedBlink
  | blink .sata => sataLedBlink

def LedReg.ofAddr (addrbyte : UInt8) : Option LedReg :=
  [cpu, onoff .led, onoff .sata, blink .led, blink .sata].find? (·.addr = addrbyte)

theorem LedReg.ofAddr_addr (r : LedReg) : ofAddr r.addr = some r := by
  rcases r with _ | kind | kind
  · decide
  · cases kind <;> decide
  · cases kind <;> decide

/-- The two data bytes of every register. -/
abbrev Registers := LedReg → UInt8 × UInt8

/-- A read returns the register's two bytes, a write of two bytes replaces them. -/
def serve (regs : Registers) : Bytes → Registers × Bytes
  | [h, a, c] =>
    match LedReg.ofAddr a with
    | some r =>
      if h = 0x80 ∧ calcChecksum [h, a, c] = 0 then
        (regs, checked [0x82, a, (regs r).1, (regs r).2])
      else (regs, [])
    | none => (regs, [])
  | [h, a, b0, b1, c] =>
    match LedReg.ofAddr a with
    | some r =>
      if h = 2 ∧ calcChecksum [h, a, b0, b1, c] = 0 then
        (Function.update regs r (b0, b1), checked [1, a, 0])
      else (regs, [])
    | none => (regs, [])
  | _ => (regs, [])

/-- The registers, and the answer bytes that have not been read yet. -/
structure Panel where
  regs : Registers
  pending : Bytes

/-- No exchange is lost: an answer is complete before its first byte is read. -/
def Panel.port : Device PortOp PortOp.Answer PyError Panel
  | .write output, s =>
    (.ok (), ⟨(serve s.regs output).1, s.pending ++ (serve s.regs output).2⟩)
  | .read size, s => (.ok (s.pending.take size), { s with pending := s.pending.drop size })

/-! ### One read-modify-write cycle -/

/-- A rule applied to both bytes of a register. -/
def both (f : UInt8 → UInt8 → UInt8) (w m : UInt8 × UInt8) : UInt8 × UInt8 :=
  (f w.1 m.1, f w.2 m.2)

def Registers.modify (regs : Registers) (r : LedReg) (f : UInt8 → UInt8 → UInt8)
    (m : UInt8 × UInt8) : Registers := Function.update regs r (both f (regs r) m)

theorem serve_read (regs : Registers) (r : LedReg) :
    serve regs [0x80, r.addr, calcCheckByte [0x80, r.addr]] =
      (regs, checked [0x82, r.addr, (regs r).1, (regs r).2]) := by
  have h := calcChecksum_checked [0x80, r.addr]
  simp only [checked, List.cons_append, List.nil_append] at h
  simp only [serve, LedReg.ofAddr_addr, h, and_self, if_true]

theorem serve_write (regs : Registers) (r : LedReg) (b0 b1 : UInt8) :
    serve regs (Command.sendWriteCmd 2 r.addr [b0, b1]).frame =
      (Function.update regs r (b0, b1), checked [1, r.addr, 0]) := by
  have h := calcChecksum_checked [2, r.addr, b0, b1]
  simp only [checked, List.cons_append, List.nil_append] at h
  simp only [Command.frame, List.cons_append, List.nil_append, serve, LedReg.ofAddr_addr, h,
    and_self, if_true]

/-- A waiting answer is taken off the line whole. -/
theorem run_getResponse_panel (regs : Registers) {h : UInt8} {bytes : Bytes}
    (hl : bytes.length = (h &&& 0x7F).toNat + 1) :
    getResponse.run Panel.port ⟨regs, checked (h :: bytes)⟩ =
      (.ok (checked (h :: bytes)), ⟨regs, []⟩) := by
  have hm : (h.toNat &&& 127) + 2 = (bytes ++ [calcCheckByte (h :: bytes)]).length := by
    simp at hl ⊢; omega
  simp [getResponse, Panel.port, checked, hm]

theorem run_readCmd_panel (regs : Registers) (r : LedReg) :
    (sendReadCmd r.addr).run Panel.port ⟨regs, []⟩ =
      (.ok (some [(regs r).1, (regs r).2]), ⟨regs, []⟩) := by
  have hw : Panel.port (.write [0x80, r.addr, calcCheckByte [0x80, r.addr]]) ⟨regs, []⟩ =
      (.ok (), ⟨regs, checked [0x82, r.addr, (regs r).1, (regs r).2]⟩) := by
    simp only [Panel.port, serve_read, List.nil_append]
  have hr := run_getResponse_panel regs (show [r.addr, (regs r).1, (regs r).2].length =
    ((0x82 : UInt8) &&& 0x7F).toNat + 1 by simp)
  have hread : ReadReply (checked [0x82, r.addr, (regs r).1, (regs r).2]) :=
    ⟨by simp [checked, firstByte]; decide, by simp [checked, firstByte]⟩
  have hp : payload (checked [0x82, r.addr, (regs r).1, (regs r).2]) =
      [(regs r).1, (regs r).2] := by
    simp [payload, checked, firstByte]
  rw [← hp]
  exact run_sendReadCmd_first hw hr (usable_checked _) hread

theorem run_writeCmd_panel (regs : Registers) (r : LedReg) (b0 b1 : UInt8) :
    (sendWriteCmd 2 r.addr [b0, b1]).run Panel.port ⟨regs, []⟩ =
      (.ok (some (checked [1, r.addr, 0])), ⟨Function.update regs r (b0, b1), []⟩) := by
  have hw : Panel.port (.write (Command.sendWriteCmd 2 r.addr [b0, b1]).frame) ⟨regs, []⟩ =
      (.ok (), ⟨Function.update regs r (b0, b1), checked [1, r.addr, 0]⟩) := by
    simp only [Panel.port, serve_write, List.nil_append]
  have hr := run_getResponse_panel (Function.update regs r (b0, b1))
    (show [r.addr, 0].length = ((1 : UInt8) &&& 0x7F).toNat + 1 by simp)
  have hn : ¬ Runt (checked [1, r.addr, 0]) := fun h => absurd h.2 (by simp [checked])
  exact run_sendWriteCmd_first hw hr (usable_checked _) hn

/-- One cycle applies its rule to its register and to no other. -/
theorem run_updateLed_panel (regs : Registers) (r : LedReg) (f : UInt8 → UInt8 → UInt8)
    (m : UInt8 × UInt8) :
    (updateLed r.addr f m).run (through Command.exchange Panel.port) ⟨regs, []⟩ =
      (.ok (), ⟨regs.modify r f m, []⟩) := by
  simp only [updateLed, readCmd, writeCmd, run_bind, run_perform, through, Command.exchange,
    run_readCmd_panel, andThen_ok, updateStatus, run_pure, run_writeCmd_panel]
  rfl

/-! ### Bits of a register -/

/-- Bit `b` of a register, counted from its first byte. -/
def bit (w : UInt8 × UInt8) (b : Fin 16) : Bool :=
  if b.val < 8 then w.1.toNat.testBit b.val else w.2.toNat.testBit (b.val - 8)

theorem byte_ext {x y : UInt8} (h : ∀ i < 8, x.toNat.testBit i = y.toNat.testBit i) : x = y := by
  apply UInt8.toNat_inj.mp
  apply Nat.eq_of_testBit_eq
  intro i
  by_cases hi : i < 8
  · exact h i hi
  · have hp : 2 ^ 8 ≤ 2 ^ i := Nat.pow_le_pow_right (by decide) (by omega)
    rw [Nat.testBit_lt_two_pow (Nat.lt_of_lt_of_le x.toNat_lt hp),
      Nat.testBit_lt_two_pow (Nat.lt_of_lt_of_le y.toNat_lt hp)]

theorem word_ext {v w : UInt8 × UInt8} (h : ∀ b, bit v b = bit w b) : v = w := by
  apply Prod.ext
  · apply byte_ext
    intro i hi
    simpa [bit, hi] using h ⟨i, by omega⟩
  · apply byte_ext
    intro i hi
    simpa [bit] using h ⟨i + 8, by omega⟩

theorem bit_setBits (w m : UInt8 × UInt8) (b : Fin 16) :
    bit (both setBits w m) b = (bit w b || bit m b) := by
  by_cases hb : b.val < 8 <;> simp [bit, both, setBits, hb, Nat.testBit_or]

theorem testBit_clearBits (x m : UInt8) {i : ℕ} (hi : i < 8) :
    (clearBits x m).toNat.testBit i = (x.toNat.testBit i && !m.toNat.testBit i) := by
  have h255 : (0xFF : ℕ).testBit i = true := by
    simpa [hi] using Nat.testBit_two_pow_sub_one 8 i
  simp [clearBits, Nat.testBit_and, Nat.testBit_xor, h255]

theorem bit_clearBits (w m : UInt8 × UInt8) (b : Fin 16) :
    bit (both clearBits w m) b = (bit w b && !bit m b) := by
  by_cases hb : b.val < 8
  · simp only [bit, both, hb, if_true, testBit_clearBits _ _ hb]
  · simp only [bit, both, hb, if_false, testBit_clearBits _ _ (show b.val - 8 < 8 by omega)]

/-- Inside the mask the mode decides the on/off bit, outside nothing changes. -/
theorem bit_onoffRule (mode : ℤ) (w m : UInt8 × UInt8) (b : Fin 16) :
    bit (both (onoffRule mode) w m) b =
      if bit m b then decide (mode ≠ ledOff) else bit w b := by
  by_cases h : mode = ledOff
  · cases hm : bit m b <;> simp [onoffRule, h, bit_clearBits, hm]
  · cases hm : bit m b <;> simp [onoffRule, h, bit_setBits, hm]

theorem bit_blinkRule (mode : ℤ) (w m : UInt8 × UInt8) (b : Fin 16) :
    bit (both (blinkRule mode) w m) b =
      if bit m b then decide (mode = ledBlink) else bit w b := by
  by_cases h : mode = ledBlink
  · cases hm : bit m b <;> simp [blinkRule, h, bit_setBits, hm]
  · cases hm : bit m b <;> simp [blinkRule, h, bit_clearBits, hm]

/-! ### Calls -/

/-- A call of `cmd_set_led` or `cmd_set_sataled`; `led` is given by its two bytes. -/
structure LedCall where
  kind : LedKind
  mode : ℤ
  mask : UInt8 × UInt8

def LedCall.call (c : LedCall) : Call :=
  match c.kind with
  | .led => .cmdSetLed c.mode [c.mask.1, c.mask.2]
  | .sata => .cmdSetSataled c.mode [c.mask.1, c.mask.2]

/-- The call down to the serial port. -/
def LedCall.program (c : LedCall) : Serial Unit := c.call.program.interp Command.exchange

/-- What a call does to the registers. -/
def LedCall.act (regs : Registers) (c : LedCall) : Registers :=
  match c.kind with
  | .led => ((regs.modify .cpu setBits c.mask).modify (.blink .led) (blinkRule c.mode)
      c.mask).modify (.onoff .led) (onoffRule c.mode) c.mask
  | .sata => (regs.modify (.blink .sata) (blinkRule c.mode) c.mask).modify (.onoff .sata)
      (onoffRule c.mode) c.mask

theorem run_ledCall (c : LedCall) (regs : Registers) :
    c.program.run Panel.port ⟨regs, []⟩ = (.ok (), ⟨c.act regs, []⟩) := by
  obtain ⟨kind, mode, mask⟩ := c
  rw [LedCall.program, run_interp]
  cases kind with
  | led =>
    have hcpu := run_updateLed_panel regs .cpu setBits mask
    have hblink := fun regs => run_updateLed_panel regs (.blink .led) (blinkRule mode) mask
    have honoff := fun regs => run_updateLed_panel regs (.onoff .led) (onoffRule mode) mask
    simp only [LedReg.addr] at hcpu hblink honoff
    simp only [LedCall.call, Call.program, cmdSetLed, ledMask, pure_bind, run_bind, hcpu, hblink,
      honoff, andThen_ok, LedCall.act]
  | sata =>
    have hblink := run_updateLed_panel regs (.blink .sata) (blinkRule mode) mask
    have honoff := fun regs => run_updateLed_panel regs (.onoff .sata) (onoffRule mode) mask
    simp only [LedReg.addr] at hblink honoff
    simp only [LedCall.call, Call.program, cmdSetSataled, ledMask, pure_bind, run_bind, hblink,
      honoff, andThen_ok, LedCall.act]

theorem runAll_ledCalls (calls : List LedCall) (regs : Registers) :
    runAll Panel.port (calls.map LedCall.program) ⟨regs, []⟩ =
      (calls.map fun _ => .ok (), ⟨calls.foldl LedCall.act regs, []⟩) :=
  runAll_map_foldl (e := fun regs => (⟨regs, []⟩ : Panel)) (fun c regs => run_ledCall c regs)
    calls regs

/-! ### The last writer decides -/

/-- The mode of a call that addresses bit `b` of the registers of a kind. -/
def LedCall.modeAt (kind : LedKind) (b : Fin 16) (c : LedCall) : Option ℤ :=
  if c.kind = kind ∧ bit c.mask b then some c.mode else none

/-- The mode of the last call of a kind whose mask contains `b`. -/
def lastMode (kind : LedKind) (b : Fin 16) (calls : List LedCall) : Option ℤ :=
  lastWrite (LedCall.modeAt kind b) calls

@[simp] theorem modify_same (regs : Registers) (r : LedReg) (f : UInt8 → UInt8 → UInt8)
    (m : UInt8 × UInt8) : regs.modify r f m r = both f (regs r) m := by
  simp [Registers.modify]

@[simp] theorem modify_other (regs : Registers) {r r' : LedReg} (f : UInt8 → UInt8 → UInt8)
    (m : UInt8 × UInt8) (h : r' ≠ r) : regs.modify r f m r' = regs r' := by
  simp [Registers.modify, h]

theorem onoff_overwrites (kind : LedKind) (b : Fin 16) :
    Overwrites (fun regs : Registers => bit (regs (.onoff kind)) b) LedCall.act
      (fun c => (c.modeAt kind b).map fun mode => decide (mode ≠ ledOff)) := by
  rintro regs ⟨k, mode, mask⟩
  cases k <;> cases kind <;>
    simp [LedCall.act, LedCall.modeAt, bit_onoffRule] <;> cases bit mask b <;> simp

theorem blink_overwrites (kind : LedKind) (b : Fin 16) :
    Overwrites (fun regs : Registers => bit (regs (.blink kind)) b) LedCall.act
      (fun c => (c.modeAt kind b).map fun mode => decide (mode = ledBlink)) := by
  rintro regs ⟨k, mode, mask⟩
  cases k <;> cases kind <;>
    simp [LedCall.act, LedCall.modeAt, bit_blinkRule] <;> cases bit mask b <;> simp

theorem bit_act_cpu (b : Fin 16) (regs : Registers) (c : LedCall) :
    bit (c.act regs .cpu) b = (bit (regs .cpu) b || (decide (c.kind = .led) && bit c.mask b)) := by
  obtain ⟨k, mode, mask⟩ := c
  cases k <;> simp [LedCall.act, bit_setBits]

/-! ### Sequences of calls -/

theorem bit_foldl_onoff (kind : LedKind) (b : Fin 16) (calls : List LedCall) (regs : Registers) :
    bit (calls.foldl LedCall.act regs (.onoff kind)) b =
      ((lastMode kind b calls).map fun mode => decide (mode ≠ ledOff)).getD
        (bit (regs (.onoff kind)) b) := by
  rw [lastMode, ← lastWrite_map]
  exact (onoff_overwrites kind b).foldl calls regs

theorem bit_foldl_blink (kind : LedKind) (b : Fin 16) (calls : List LedCall) (regs : Registers) :
    bit (calls.foldl LedCall.act regs (.blink kind)) b =
      ((lastMode kind b calls).map fun mode => decide (mode = ledBlink)).getD
        (bit (regs (.blink kind)) b) := by
  rw [lastMode, ← lastWrite_map]
  exact (blink_overwrites kind b).foldl calls regs

/-- Bits of the register 0x50 are only ever set. -/
theorem bit_foldl_cpu (b : Fin 16) (calls : List LedCall) (regs : Registers) :
    bit (calls.foldl LedCall.act regs .cpu) b ↔
      bit (regs .cpu) b ∨ ∃ c ∈ calls, c.kind = .led ∧ bit c.mask b := by
  induction calls generalizing regs with
  | nil => simp
  | cons c calls ih =>
    rw [List.foldl_cons, ih, bit_act_cpu]
    simp [or_assoc]

/-- No bit is in both masks. -/
def LedCall.Apart (c d : LedCall) : Prop := ∀ b, ¬ (bit c.mask b ∧ bit d.mask b)

theorem LedCall.Apart.modeAt {c d : LedCall} (h : c.Apart d) (kind : LedKind) (b : Fin 16) :
    c.modeAt kind b = none ∨ d.modeAt kind b = none := by
  by_cases hc : bit c.mask b
  · exact Or.inr (if_neg fun hd => h b ⟨hc, hd.2⟩)
  · exact Or.inl (if_neg fun hd => hc hd.2)

/-- Calls with disjoint masks may be exchanged. -/
theorem act_comm {c d : LedCall} (h : c.Apart d) (regs : Registers) :
    d.act (c.act regs) = c.act (d.act regs) := by
  funext r
  apply word_ext
  intro b
  have hmap : ∀ kind (f : ℤ → Bool), (c.modeAt kind b).map f = none ∨
      (d.modeAt kind b).map f = none := by
    intro kind f
    simpa only [Option.map_eq_none_iff] using h.modeAt kind b
  cases r with
  | cpu => simp only [bit_act_cpu, Bool.or_right_comm]
  | onoff kind => exact (onoff_overwrites kind b).comm (hmap kind _) regs
  | blink kind => exact (blink_overwrites kind b).comm (hmap kind _) regs

/-- Each LED bit is decided by the last call that addresses it, the bits of 0x50 accumulate, and
neighbouring calls with disjoint masks can be exchanged. -/
theorem ledCalls_lastWriter (calls : List LedCall) (regs : Registers) :
    ∃ regs' : Registers,
      runAll Panel.port (calls.map LedCall.program) ⟨regs, []⟩ =
        (calls.map fun _ => .ok (), ⟨regs', []⟩) ∧
      (∀ kind b, bit (regs' (.onoff kind)) b =
        match lastMode kind b calls with
        | some mode => decide (mode ≠ ledOff)
        | none => bit (regs (.onoff kind)) b) ∧
      (∀ kind b, bit (regs' (.blink kind)) b =
        match lastMode kind b calls with
        | some mode => decide (mode = ledBlink)
        | none => bit (regs (.blink kind)) b) ∧
      (∀ b, bit (regs' .cpu) b ↔
        bit (regs .cpu) b ∨ ∃ c ∈ calls, c.kind = .led ∧ bit c.mask b) ∧
      ∀ before c d after, calls = before ++ c :: d :: after → c.Apart d →
        runAll Panel.port ((before ++ d :: c :: after).map LedCall.program) ⟨regs, []⟩ =
          (calls.map fun _ => .ok (), ⟨regs', []⟩) := by
  refine ⟨calls.foldl LedCall.act regs, runAll_ledCalls calls regs, ?_, ?_, ?_, ?_⟩
  · intro kind b
    rw [bit_foldl_onoff]
    cases lastMode kind b calls <;> rfl
  · intro kind b
    rw [bit_foldl_blink]
    cases lastMode kind b calls <;> rfl
  · intro b
    exact bit_foldl_cpu b calls regs
  · rintro before c d after rfl h
    rw [runAll_ledCalls]
    simp only [List.map_append, List.map_cons, List.foldl_append, List.foldl_cons, act_comm h]

end BuffaloNas.Micon
