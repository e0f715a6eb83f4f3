import BuffaloNas.Micon.Stream
import Mathlib.Data.List.Infix

/-! `micon_shutdown.py` for micon version 2, on a port that may answer anything. -/
namespace BuffaloNas.Micon
open Interaction Program

/-! ### The script -/

/-- A continuation byte of UTF-8. -/
def isCont (b : UInt8) : Bool := 0x80 ≤ b && b ≤ 0xBF

/-- The bounds that a lead byte puts on the second byte: no overlong forms, no surrogates. -/
def secondByte (lead b : UInt8) : Bool :=
  match lead with
  | 0xE0 => 0xA0 ≤ b && b ≤ 0xBF
  | 0xED => 0x80 ≤ b && b ≤ 0x9F
  | 0xF0 => 0x90 ≤ b && b ≤ 0xBF
  | 0xF4 => 0x80 ≤ b && b ≤ 0x8F
  | _ => isCont b

/-- `decode('utf-8')`: the code points, unless the bytes are not well-formed UTF-8. -/
def decodeUtf8 : Bytes → Option (List ℕ)
  | [] => some []
  | b :: rest =>
    if b < 0x80 then (decodeUtf8 rest).map (b.toNat :: ·)
    else if 0xC2 ≤ b ∧ b ≤ 0xDF then
      match rest with
      | c :: rest =>
        if isCont c then (decodeUtf8 rest).map ((b.toNat % 32 * 64 + c.toNat % 64) :: ·) else none
      | _ => none
    else if 0xE0 ≤ b ∧ b ≤ 0xEF then
      match rest with
      | c :: d :: rest =>
        if secondByte b c && isCont d then
          (decodeUtf8 rest).map
            ((b.toNat % 16 * 4096 + c.toNat % 64 * 64 + d.toNat % 64) :: ·)
        else none
      | _ => none
    else if 0xF0 ≤ b ∧ b ≤ 0xF4 then
      match rest with
      | c :: d :: e :: rest =>
        if secondByte b c && isCont d && isCont e then
          (decodeUtf8 rest).map
            ((b.toNat % 8 * 262144 + c.toNat % 64 * 4096 + d.toNat % 64 * 64 + e.toNat % 64) :: ·)
        else none
      | _ => none
    else none

/-- `text.find(needle) != -1` -/
def found (text : List ℕ) (needle : String) : Bool :=
  decide (needle.toList.map Char.toNat <:+: text)

/-- `micon_version.decode('utf-8')` of what `send_read_cmd` returned. -/
def decodeVersion : Option Bytes → Api (List ℕ)
  | none => raise .attributeError
  | some version =>
    match decodeUtf8 version with
    | some text => pure text
    | none => raise .unicodeDecodeError

def Halting (action : String) : Prop := action ∈ ["halt", "poweroff"]

instance (action : String) : Decidable (Halting action) := inferInstanceAs (Decidable (_ ∈ _))

/-- The end of the halting branch, which depends on the model. -/
def powerDown (miconVersion : List ℕ) : Api Unit := do
  if found miconVersion "TS-XEL" then
    let _ ← writeCmd 1 0x46 [0x00] -- clear power setting
    let _ ← writeCmd 0 0x0E [] -- reboot
  if found miconVersion "TS1400" then
    let _ ← writeCmd 0 0x12 [] -- ups_linefail_on
  if !found miconVersion "TS-XEL" && !found miconVersion "TS1400" then
    let _ ← writeCmd 0 0x06 [] -- power_off

def shutdownHalt (miconVersion : List ℕ) : Api Unit := do
  setLcdBrightness [0x00]
  setLcdBuffer 0x90 "             ".toList "             ".toList
  cmdForceLcdDisp lcdDispBuffer0
  cmdSetLed ledOff [0x00, 0x07]
  let _ ← writeCmd 1 0x46 [0x43] -- MagicKeyHwPoff
  powerDown miconVersion

def shutdownReboot : Api Unit := do
  setLcdBuffer 0x90 "Restarting...   ".toList "               ".toList
  cmdForceLcdDisp lcdDispBuffer0
  let _ ← writeCmd 1 0x46 [0x18] -- MagicKeyReboot
  let _ ← writeCmd 1 0x35 [0x00] -- watchdog
  let _ ← writeCmd 0 0x0E [] -- reboot

def shutdownV2 (action : String) : Api Unit := do
  perform Command.sendPreamble
  let miconVersion ← decodeVersion (← readCmd 0x83)
  let _ ← writeCmd 1 0x35 [0x00] -- watchdog
  let _ ← writeCmd 0 0x03 [] -- boot_end
  let _ ← writeCmd 0 0x0C [] -- shutdown_wait
  if Halting action then shutdownHalt miconVersion else shutdownReboot

/-! ### What the incoming bytes have to be for the script to get through -/

/-- A write exchange that raises nothing, and the bytes still to come after it. -/
def acked (reads : Reads) : Option Reads :=
  match exchange retryCount reads with
  | (.ok _, reads) => some reads
  | (.error _, _) => none

/-- A read exchange that returns a value. -/
def valued (reads : Reads) : Option (Bytes × Reads) :=
  match readExchange retryCount reads with
  | (.ok (some value), reads) => some (value, reads)
  | _ => none

/-- A read-modify-write cycle on a register of at least two bytes. -/
def cycled (reads : Reads) : Option Reads := do
  let (value, reads) ← valued reads
  if 2 ≤ value.length then acked reads else none

def versioned (reads : Reads) : Option (List ℕ × Reads) := do
  let (value, reads) ← valued reads
  let text ← decodeUtf8 value
  return (text, reads)

/-- `n` write exchanges in a row. -/
def ackedTimes : ℕ → Reads → Option Reads
  | 0, reads => some reads
  | n + 1, reads => acked reads >>= ackedTimes n

/-- The exchanges before the first of the final commands all go through. -/
def getsThrough (action : String) (reads : Reads) : Option Reads := do
  let (text, reads) ← versioned reads
  let reads ← ackedTimes 3 reads
  if Halting action then
    let reads ← ackedTimes 3 reads
    let reads ← cycled reads
    let reads ← cycled reads
    let reads ← cycled reads
    let reads ← acked reads
    if found text "TS-XEL" then acked reads else some reads
  else ackedTimes 4 reads

/-! ### Pieces of the script that only prepare the final command -/

variable {α β : Type} {F : Command → Prop}

/-- A piece that issues no command of `F` and goes through exactly when `x` says so. -/
structure Prepares (F : Command → Prop) (p : Api α) (x : Reads → Option Reads) : Prop where
  quiet : ∀ reads, p.Always replies (fun c _ => ¬ F c) reads
  through : ∀ reads t, x reads = some t ↔ ∃ a, p.run replies reads = (.ok a, t)

/-- Past a preparing piece, the final command is sent exactly when the rest sends it. -/
theorem Prepares.sometimes_then {p : Api α} {x : Reads → Option Reads} (h : Prepares F p x)
    (k : Api β) (reads : Reads) :
    (p >>= fun _ => k).Sometimes replies (fun c _ => F c) reads ↔
      ∃ t, x reads = some t ∧ k.Sometimes replies (fun c _ => F c) t := by
  rw [sometimes_bind]
  constructor
  · rintro (hp | ⟨a, ha, hk⟩)
    · exact (hp (h.quiet reads)).elim
    · exact ⟨_, (h.through reads _).mpr ⟨a, Prod.ext ha rfl⟩, hk⟩
  · rintro ⟨t, ht, hk⟩
    obtain ⟨a, ha⟩ := (h.through reads t).mp ht
    exact Or.inr ⟨a, by rw [ha], by rwa [ha]⟩

theorem Prepares.then {p : Api α} {q : Api β} {x y : Reads → Option Reads}
    (hp : Prepares F p x) (hq : Prepares F q y) :
    Prepares F (p >>= fun _ => q) (fun reads => x reads >>= y) where
  quiet reads := by
    rw [always_bind]
    exact ⟨hp.quiet reads, fun _ _ => hq.quiet _⟩
  through reads t := by
    rw [run_bind]
    constructor
    · intro h
      obtain ⟨u, hu, ht⟩ := Option.bind_eq_some_iff.mp h
      obtain ⟨a, ha⟩ := (hp.through reads u).mp hu
      obtain ⟨b, hb⟩ := (hq.through u t).mp ht
      exact ⟨b, by rw [ha, andThen_ok, hb]⟩
    · rintro ⟨b, hb⟩
      rcases hr : p.run replies reads with ⟨e | a, u⟩
      · simp [hr] at hb
      · rw [hr, andThen_ok] at hb
        exact Option.bind_eq_some_iff.mpr
          ⟨u, (hp.through reads u).mpr ⟨a, hr⟩, (hq.through u t).mpr ⟨b, hb⟩⟩

/-- The value a piece returns does not matter. -/
theorem Prepares.void {p : Api α} {x : Reads → Option Reads} (h : Prepares F p x) :
    Prepares F (do let _ ← p) x where
  quiet reads := by
    rw [always_bind]
    exact ⟨h.quiet reads, fun _ _ => trivial⟩
  through reads t := by
    rw [h.through reads t, run_bind]
    rcases p.run replies reads with ⟨e | a, u⟩ <;> simp

theorem prepares_writeCmd {length addrbyte : UInt8} {databytes : Bytes}
    (h : ¬ F (.sendWriteCmd length addrbyte databytes)) :
    Prepares F (writeCmd length addrbyte databytes) acked where
  quiet reads := by simpa [writeCmd] using h
  through reads t := by
    rw [writeCmd, run_perform, acked, replies]
    rcases exchange retryCount reads with ⟨e | r, u⟩ <;> simp

/-- A LED cycle whose write is not of `F` prepares. -/
theorem prepares_updateLed {addrbyte : UInt8} {f : UInt8 → UInt8 → UInt8} {m : UInt8 × UInt8}
    (hr : ¬ F (.sendReadCmd addrbyte)) (hw : ∀ v, ¬ F (.sendWriteCmd 2 addrbyte v)) :
    Prepares F (updateLed addrbyte f m) cycled where
  quiet reads := by
    rw [updateLed, always_bind]
    refine ⟨by simpa [readCmd] using hr, fun v _ => ?_⟩
    rcases v with _ | _ | ⟨b0, _ | ⟨b1, rest⟩⟩
    · simp [updateStatus]
    · simp [updateStatus]
    · simp [updateStatus]
    · simpa [updateStatus, writeCmd] using hw _
  through reads t := by
    rw [updateLed, readCmd, run_bind, run_perform, cycled, valued, replies]
    rcases readExchange retryCount reads with ⟨e | _ | _ | ⟨b0, _ | ⟨b1, rest⟩⟩, u⟩
    · simp
    · simp [updateStatus]
    · simp [updateStatus]
    · simp [updateStatus]
    · have ha := (prepares_writeCmd (hw (f b0 m.1 :: f b1 m.2 :: rest))).void.through u t
      simpa [updateStatus] using ha

theorem prepares_cmdSetLed {mode : ℤ} {m0 m1 : UInt8}
    (hr : ∀ addrbyte, ¬ F (.sendReadCmd addrbyte))
    (hw : ∀ addrbyte v, ¬ F (.sendWriteCmd 2 addrbyte v)) :
    Prepares F (cmdSetLed mode [m0, m1])
      (fun reads => cycled reads >>= fun reads => cycled reads >>= cycled) :=
  (prepares_updateLed (hr _) (hw _)).then
    ((prepares_updateLed (hr _) (hw _)).then (prepares_updateLed (hr _) (hw _)))

theorem ljust16_mem {row : List Char} {c : Char} (h : c ∈ ljust16 row) : c ∈ row ∨ c = ' ' := by
  rcases List.mem_append.mp (List.mem_of_mem_take h) with h | h
  · exact Or.inl h
  · exact Or.inr (List.eq_of_mem_replicate h)

/-- Texts without characters beyond one byte are encoded without an error. -/
theorem messageBytes_eq {message : List Char} (h : ∀ c ∈ message, c.toNat < 256) :
    messageBytes message = pure (message.map fun c => UInt8.ofNat c.toNat) :=
  mapM_pure fun c hc => if_pos (h c hc)

theorem prepares_setLcdBuffer {bufferbyte : UInt8} {row1 row2 : List Char}
    (hF : ∀ v, ¬ F (.sendWriteCmd 32 bufferbyte v)) (h1 : row1.all (·.toNat < 256))
    (h2 : row2.all (·.toNat < 256)) : Prepares F (setLcdBuffer bufferbyte row1 row2) acked := by
  simp only [List.all_eq_true, decide_eq_true_eq] at h1 h2
  have hm : ∀ c ∈ ljust16 row1 ++ ljust16 row2, c.toNat < 256 := by
    intro c hc
    have hspace : ' '.toNat < 256 := by decide
    rcases List.mem_append.mp hc with hc | hc
    · exact (ljust16_mem hc).elim (h1 c) (· ▸ hspace)
    · exact (ljust16_mem hc).elim (h2 c) (· ▸ hspace)
  rw [setLcdBuffer, messageBytes_eq hm]
  exact (prepares_writeCmd (hF _)).void

/-! ### The final command -/

def haltCommands : List Command :=
  [.sendWriteCmd 0 0x06 [], .sendWriteCmd 0 0x0E [], .sendWriteCmd 0 0x12 []]

def rebootCommands : List Command := [.sendWriteCmd 0 0x0E []]

/-- The commands of which one has to get out, for the given action. -/
def finalCommands (action : String) : List Command :=
  if Halting action then haltCommands else rebootCommands

theorem sometimes_powerDown (text : List ℕ) (reads : Reads) :
    (powerDown text).Sometimes replies (fun c _ => c ∈ haltCommands) reads ↔
      ∃ t, (if found text "TS-XEL" then acked reads else some reads) = some t := by
  have hclear : ¬ Command.sendWriteCmd 1 0x46 [0x00] ∈ haltCommands := by decide
  rcases hx : found text "TS-XEL"
  · rcases ht : found text "TS1400" <;> simp [powerDown, hx, ht, writeCmd, haltCommands]
  · simp only [powerDown, hx, if_true]
    rw [(prepares_writeCmd hclear).sometimes_then]
    simp [writeCmd, haltCommands]

theorem exists_bind_some {x : Option α} {f : α → Option β} :
    (∃ b, (x >>= f) = some b) ↔ ∃ a, x = some a ∧ ∃ b, f a = some b := by
  cases x <;> simp

theorem exists_bind_and {x : Option α} {f : α → Option β} {Q : β → Prop} :
    (∃ b, (x >>= f) = some b ∧ Q b) ↔ ∃ a, x = some a ∧ ∃ b, f a = some b ∧ Q b := by
  cases x <;> simp

theorem sometimes_shutdownHalt (text : List ℕ) (reads : Reads) :
    (shutdownHalt text).Sometimes replies (fun c _ => c ∈ haltCommands) reads ↔
      ∃ t, (do
        let reads ← ackedTimes 3 reads
        let reads ← cycled reads
        let reads ← cycled reads
        let reads ← cycled reads
        let reads ← acked reads
        if found text "TS-XEL" then acked reads else some reads) = some t := by
  have hled : ∀ a v, ¬ Command.sendWriteCmd 2 a v ∈ haltCommands := by simp [haltCommands]
  have hread : ∀ a, ¬ Command.sendReadCmd a ∈ haltCommands := by simp [haltCommands]
  have bright : Prepares (· ∈ haltCommands) (setLcdBrightness [0x00]) acked :=
    (prepares_writeCmd (by decide)).void
  have buffer : Prepares (· ∈ haltCommands)
      (setLcdBuffer 0x90 "             ".toList "             ".toList) acked :=
    prepares_setLcdBuffer (by simp [haltCommands]) (by decide) (by decide)
  have disp : Prepares (· ∈ haltCommands) (cmdForceLcdDisp lcdDispBuffer0) acked :=
    (prepares_writeCmd (by decide)).void
  have leds : Prepares (· ∈ haltCommands) (cmdSetLed ledOff [0x00, 0x07]) _ :=
    prepares_cmdSetLed hread hled
  have magic : Prepares (· ∈ haltCommands) (writeCmd 1 0x46 [0x43]) acked :=
    prepares_writeCmd (by decide)
  rw [shutdownHalt, bright.sometimes_then]
  simp only [buffer.sometimes_then, disp.sometimes_then, leds.sometimes_then,
    magic.sometimes_then, sometimes_powerDown, exists_bind_some, exists_bind_and, ackedTimes,
    Option.some.injEq, exists_eq_left']

theorem sometimes_shutdownReboot (reads : Reads) :
    shutdownReboot.Sometimes replies (fun c _ => c ∈ rebootCommands) reads ↔
      ∃ t, ackedTimes 4 reads = some t := by
  have buffer : Prepares (· ∈ rebootCommands)
      (setLcdBuffer 0x90 "Restarting...   ".toList "               ".toList) acked :=
    prepares_setLcdBuffer (by simp [rebootCommands]) (by decide) (by decide)
  have disp : Prepares (· ∈ rebootCommands) (cmdForceLcdDisp lcdDispBuffer0) acked :=
    (prepares_writeCmd (by decide)).void
  have magic : Prepares (· ∈ rebootCommands) (writeCmd 1 0x46 [0x18]) acked :=
    prepares_writeCmd (by decide)
  have watchdog : Prepares (· ∈ rebootCommands) (writeCmd 1 0x35 [0x00]) acked :=
    prepares_writeCmd (by decide)
  rw [shutdownReboot, buffer.sometimes_then]
  simp only [disp.sometimes_then, magic.sometimes_then, watchdog.sometimes_then,
    exists_bind_some, ackedTimes]
  simp [writeCmd, rebootCommands]

/-- The version request has to come back with a text, or the script ends there. -/
theorem sometimes_version (k : List ℕ → Api β) (reads : Reads)
    (hF : ¬ F (.sendReadCmd 0x83)) :
    (do let miconVersion ← decodeVersion (← readCmd 0x83)
        k miconVersion).Sometimes replies (fun c _ => F c) reads ↔
      ∃ r, versioned reads = some r ∧ (k r.1).Sometimes replies (fun c _ => F c) r.2 := by
  rw [sometimes_bind, readCmd, sometimes_perform, or_iff_right hF, run_perform, versioned, valued,
    replies]
  rcases readExchange retryCount reads with ⟨e | v, t⟩
  · simp
  cases v with
  | none => simp [decodeVersion]
  | some version => rcases hd : decodeUtf8 version with _ | text <;> simp [decodeVersion, hd]

theorem sometimes_shutdownV2 (action : String) (reads : Reads) :
    (shutdownV2 action).Sometimes replies (fun c _ => c ∈ finalCommands action) reads ↔
      ∃ t, getsThrough action reads = some t := by
  have hF : ∀ c, c ∈ finalCommands action → c ∈ haltCommands := by
    intro c hc
    rw [finalCommands] at hc
    split at hc
    · exact hc
    · rw [List.mem_singleton.mp hc]; decide
  have watchdog : Prepares (· ∈ finalCommands action) (writeCmd 1 0x35 [0x00]) acked :=
    prepares_writeCmd fun h => absurd (hF _ h) (by decide)
  have bootEnd : Prepares (· ∈ finalCommands action) (writeCmd 0 0x03 []) acked :=
    prepares_writeCmd fun h => absurd (hF _ h) (by decide)
  have wait : Prepares (· ∈ finalCommands action) (writeCmd 0 0x0C []) acked :=
    prepares_writeCmd fun h => absurd (hF _ h) (by decide)
  have hpre : ¬ Command.sendPreamble ∈ finalCommands action :=
    fun h => absurd (hF _ h) (by decide)
  rw [shutdownV2, sometimes_bind, sometimes_perform, or_iff_right hpre]
  simp only [run_perform, replies, true_and, exists_const]
  rw [sometimes_version _ _ fun h => absurd (hF _ h) (by decide)]
  simp only [watchdog.sometimes_then, bootEnd.sometimes_then, wait.sometimes_then, getsThrough]
  by_cases ha : Halting action
  · simp only [ha, if_true, finalCommands, sometimes_shutdownHalt, exists_bind_some,
      exists_bind_and, ackedTimes, Option.some.injEq, exists_eq_left']
  · simp only [ha, if_false, finalCommands, sometimes_shutdownReboot, exists_bind_some,
      exists_bind_and, ackedTimes, Option.some.injEq, exists_eq_left']

/-! ### On the wire -/

/-- The device that only looks at what is written to the port. -/
def sends (frames : List Bytes) : PortOp → Line → Prop
  | .write output, _ => output ∈ frames
  | .read _, _ => False

theorem sometimes_sends {p : Serial α} {frames : List Bytes} {s : Line} :
    p.Sometimes Line.port (sends frames) s ↔
      ¬ p.Always Line.port (writes fun output => output ∉ frames) s := by
  refine not_congr ⟨fun h => h.mono ?_, fun h => h.mono ?_⟩ <;> rintro (output | size) s <;>
    simp [sends, writes]

/-- What is on the wire in the end was there before or has been sent by the program. -/
theorem mem_sent {p : Serial α} {frames : List Bytes} {s : Line} :
    (∃ f ∈ frames, f ∈ (p.run Line.port s).2.sent) ↔
      (∃ f ∈ frames, f ∈ s.sent) ∨ p.Sometimes Line.port (sends frames) s := by
  induction p generalizing s with
  | done a => simp
  | raise e => simp
  | call o k ih =>
    cases o with
    | read size =>
      simpa [run_call, sometimes_sends, always_call, writes] using ih _
    | write output =>
      rw [run_call, port_write, andThen_ok, ih]
      have hw : (∃ f ∈ frames, f ∈ s.sent ++ [output]) ↔
          (∃ f ∈ frames, f ∈ s.sent) ∨ output ∈ frames := by
        simp only [List.mem_append, List.mem_singleton, and_or_left, exists_or, exists_eq_right]
      rw [hw, or_assoc]
      refine or_congr_right ?_
      rw [sometimes_sends, sometimes_sends, always_call, not_and_or]
      simp only [writes, not_not, port_write, not_forall]
      refine or_congr_right ⟨fun h => ⟨(), trivial, h⟩, ?_⟩
      rintro ⟨_, _, h⟩
      exact h

/-- A read command writes frames of read type and preambles only, in all its rounds. -/
theorem always_sendReadCmdLoop_of {P : Bytes → Prop} (hP : P preamble)
    (hread : ∀ tail, P (0x80 :: tail)) (n : ℕ) (tail : Bytes) (s : Line) :
    (sendReadCmdLoop n (0x80 :: tail)).Always Line.port (writes P) s := by
  induction n generalizing tail s with
  | zero => simp [sendReadCmdLoop]
  | succ n ih =>
    rw [always_sendReadCmdLoop, always_sendCmd hP]
    refine ⟨hread _, fun r _ => ?_⟩
    cases r with
    | none => exact ih _ _
    | some response =>
      rw [afterExchange, always_ite]
      split
      · trivial
      · exact ih _ _

/-- The frame of a write command determines the command. -/
theorem writeFrame_inj {l a l' a' : UInt8} {d d' : Bytes}
    (h : (Command.sendWriteCmd l a d).frame = (Command.sendWriteCmd l' a' d').frame) :
    Command.sendWriteCmd l a d = Command.sendWriteCmd l' a' d' := by
  obtain ⟨h, -⟩ := List.append_inj' h rfl
  simpa using h

theorem finalCommands_write {action : String} {c : Command} (h : c ∈ finalCommands action) :
    ∃ a, c = .sendWriteCmd 0 a [] := by
  rw [finalCommands] at h
  split at h <;> simp only [haltCommands, rebootCommands, List.mem_cons, List.not_mem_nil,
    or_false] at h
  · rcases h with rfl | rfl | rfl <;> exact ⟨_, rfl⟩
  · exact ⟨_, h⟩

/-- A final command is the only one that writes one of the final frames. -/
theorem sometimes_exchange (action : String) (c : Command) (s : Line) :
    c.exchange.Sometimes Line.port (sends ((finalCommands action).map Command.frame)) s ↔
      c ∈ finalCommands action := by
  have hP : preamble ∉ (finalCommands action).map Command.frame := by
    intro h
    obtain ⟨c, hc, hf⟩ := List.mem_map.mp h
    obtain ⟨a, rfl⟩ := finalCommands_write hc
    exact absurd (congrArg List.length hf) (by simp [Command.frame, preamble])
  have hread : ∀ tail, 0x80 :: tail ∉ (finalCommands action).map Command.frame := by
    intro tail h
    obtain ⟨c, hc, hf⟩ := List.mem_map.mp h
    obtain ⟨a, rfl⟩ := finalCommands_write hc
    exact absurd (List.cons.inj hf).1 (by decide)
  rw [sometimes_sends]
  cases c with
  | sendPreamble =>
    refine iff_of_false (not_not_intro ?_) fun h => ?_
    · simpa [Command.exchange, sendPreamble, sendBytes, writes] using hP
    · obtain ⟨a, ha⟩ := finalCommands_write h
      cases ha
  | sendReadCmd addrbyte =>
    refine iff_of_false (not_not_intro (always_sendReadCmdLoop_of hP hread _ _ _)) fun h => ?_
    obtain ⟨a, ha⟩ := finalCommands_write h
    cases ha
  | sendWriteCmd length addrbyte databytes =>
    rw [Command.exchange, always_sendWriteCmd hP, not_not]
    constructor
    · intro h
      obtain ⟨c, hc, hf⟩ := List.mem_map.mp h
      obtain ⟨a, rfl⟩ := finalCommands_write hc
      rwa [← writeFrame_inj hf]
    · exact fun h => List.mem_map_of_mem h

/-- Version 2, any action, any bytes from the port: one of the final frames is written exactly
when the exchanges before it go through. -/
theorem shutdownV2_sends_iff (action : String) (reads : Reads) :
    (∃ f ∈ (finalCommands action).map Command.frame,
        f ∈ (((shutdownV2 action).interp Command.exchange).run Line.port ⟨reads, []⟩).2.sent) ↔
      ∃ rest, getsThrough action reads = some rest := by
  rw [mem_sent, sometimes_interp, ← sometimes_shutdownV2]
  simp only [List.not_mem_nil, and_false, exists_false, false_or, sometimes_exchange]
  refine not_congr (always_simulates port_simulates ?_ _ rfl)
  intros; exact Iff.rfl

/-- The final frames: power_off, reboot and 0x12, or reboot alone. -/
example : haltCommands.map Command.frame =
    [[0x00, 0x06, 0xFA], [0x00, 0x0E, 0xF2], [0x00, 0x12, 0xEE]] := by decide

/-- No answer to the version request: `None` has no `decode`, and nothing final is sent. -/
theorem shutdownV2_silent :
    ¬ ∃ f ∈ (finalCommands "poweroff").map Command.frame,
      f ∈ (((shutdownV2 "poweroff").interp Command.exchange).run Line.port
        ⟨fun _ => [], []⟩).2.sent := by
  decide

end BuffaloNas.Micon
