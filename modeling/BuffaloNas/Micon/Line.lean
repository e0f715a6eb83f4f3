import BuffaloNas.Micon.Api
import Mathlib.Tactic.Linarith

/-! Exchanges on a serial line that may deliver anything, and what decides their outcome. -/
namespace BuffaloNas.Micon
open Interaction Program

/-- What the reads of a port deliver, one after the other. -/
abbrev Reads := ℕ → Bytes

def Reads.after (reads : Reads) (n : ℕ) : Reads := fun i => reads (i + n)

/-- A port with an arbitrary future, and everything written to it so far. -/
structure Line where
  reads : Reads
  sent : List Bytes

/-- Writes succeed; `read(n)` returns at most `n` bytes of whatever comes next. -/
def Line.port : Device PortOp PortOp.Answer PyError Line
  | .write output, s => (.ok (), { s with sent := s.sent ++ [output] })
  | .read size, s => (.ok ((s.reads 0).take size), { s with reads := s.reads.after 1 })

/-! ### The outcome of an exchange, from the incoming bytes alone -/

/-- The bytes the next `get_response` returns. -/
def Reads.response (reads : Reads) : Bytes :=
  let first := (reads 0).take 1
  first ++ (reads 1).take (match first with
    | [b] => (b &&& 0x7F).toNat + 2
    | _ => 32)

def firstByte (response : Bytes) : UInt8 := response.headD 0

/-- The acceptance test of `send_cmd`. -/
def Usable (response : Bytes) : Prop := response ≠ [] ∧ calcChecksum response = 0

instance (response : Bytes) : Decidable (Usable response) := inferInstanceAs (Decidable (_ ∧ _))

theorem usable_checked (bytes : Bytes) : Usable (checked bytes) :=
  ⟨by simp [checked], calcChecksum_checked bytes⟩

/-- A usable answer of write type that is too short to hold a response code. -/
def Runt (response : Bytes) : Prop := firstByte response &&& 0x80 = 0 ∧ response.length < 3

instance (response : Bytes) : Decidable (Runt response) := inferInstanceAs (Decidable (_ ∧ _))

/-- The acceptance test of `send_read_cmd`: a read reply of the length it announces. -/
def ReadReply (response : Bytes) : Prop :=
  firstByte response &&& 0x80 ≠ 0 ∧ ((firstByte response ^^^ 0x80).toNat : ℤ) = response.length - 3

instance (response : Bytes) : Decidable (ReadReply response) :=
  inferInstanceAs (Decidable (_ ∧ _))

def payload (response : Bytes) : Bytes := (response.drop 2).take (firstByte response ^^^ 0x80).toNat

/-- Up to `n` attempts: the first usable response, or nothing. -/
def exchange : ℕ → Reads → Except PyError (Option Bytes) × Reads
  | 0, reads => (.ok none, reads)
  | n + 1, reads =>
    if Usable reads.response then
      (if Runt reads.response then .error .indexError else .ok (some reads.response),
        reads.after 2)
    else exchange n (reads.after 2)

/-- Up to `n` exchanges of a read command: the payload of the first read reply, or nothing. -/
def readExchange : ℕ → Reads → Except PyError (Option Bytes) × Reads
  | 0, reads => (.ok none, reads)
  | n + 1, reads => andThen (exchange retryCount reads) fun response reads =>
    match response with
    | some response =>
      if ReadReply response then (.ok (some (payload response)), reads)
      else readExchange n reads
    | none => readExchange n reads

/-- The micon as its commands see it: replies, errors and silence out of the incoming bytes. -/
def replies : Device Command Command.Answer PyError Reads
  | .sendPreamble, reads => (.ok (), reads)
  | .sendReadCmd _, reads => readExchange retryCount reads
  | .sendWriteCmd _ _ _, reads => exchange retryCount reads

/-! ### The code's exchanges have that outcome -/

@[simp] theorem port_write (output : Bytes) (s : Line) :
    Line.port (.write output) s = (.ok (), { s with sent := s.sent ++ [output] }) := rfl

@[simp] theorem port_read (size : ℕ) (s : Line) :
    Line.port (.read size) s =
      (.ok ((s.reads 0).take size), { s with reads := s.reads.after 1 }) := rfl

theorem run_getResponse (s : Line) :
    getResponse.run Line.port s =
      (.ok s.reads.response, { s with reads := s.reads.after 2 }) := by
  simp only [getResponse, run_bind, run_perform, port_read, andThen_ok, run_pure]
  rfl

theorem item_eq {bs : Bytes} {i : ℕ} (h : i < bs.length) : item bs i = pure (bs.getD i 0) := by
  simp [item, h]

theorem item_zero {bs : Bytes} (h : bs ≠ []) : item bs 0 = pure (firstByte bs) := by
  cases bs with
  | nil => exact absurd rfl h
  | cons b bs => rfl

theorem item_out {bs : Bytes} {i : ℕ} (h : bs.length ≤ i) : item bs i = raise .indexError := by
  simp [item, h]

/-- The copying loop of `send_read_cmd` takes the bytes between the header and the check byte. -/
theorem mapM_item {bs : Bytes} {n k : ℕ} (h : n + k ≤ bs.length) :
    (List.range n).mapM (fun y => item bs (y + k)) = pure ((bs.drop k).take n) := by
  rw [mapM_pure (g := fun y => bs.getD (y + k) 0) fun y hy =>
    item_eq (by rw [List.mem_range] at hy; omega)]
  congr 1
  apply List.ext_getElem
  · simp; omega
  · intro i h1 h2
    simp only [List.length_map, List.length_range] at h1
    simp [Nat.add_comm k i, show i + k < bs.length by omega]

variable {σ : Type} {d : Device PortOp PortOp.Answer PyError σ}

/-- The response code of a usable response can be looked up unless the response is a runt. -/
theorem run_responseCode (response : Bytes) (hu : Usable response) (s : σ) :
    (do let first ← item response 0
        if first &&& 0x80 = 0 then let _ ← item response 2
        return some response : Serial (Option Bytes)).run d s =
      (if Runt response then .error .indexError else .ok (some response), s) := by
  rw [item_zero hu.1]
  by_cases ht : firstByte response &&& 0x80 = 0
  · by_cases hl : response.length < 3
    · simp [Runt, ht, hl, item_out (show response.length ≤ 2 by omega)]
    · simp [Runt, ht, hl, item_eq (show 2 < response.length by omega)]
  · simp [Runt, ht]

theorem run_sendCmdLoop (cmdbytes : Bytes) (n : ℕ) (s : Line) :
    ((sendCmdLoop cmdbytes n).run Line.port s).1 = (exchange n s.reads).1 ∧
      ((sendCmdLoop cmdbytes n).run Line.port s).2.reads = (exchange n s.reads).2 := by
  induction n generalizing s with
  | zero => exact ⟨rfl, rfl⟩
  | succ n ih =>
    simp only [sendCmdLoop, sendBytes, sendPreamble, run_bind, run_perform, port_write,
      andThen_ok, run_getResponse, run_ite, exchange, Usable]
    by_cases hl : s.reads.response = []
    · simpa [hl] using ih ⟨s.reads.after 2, s.sent ++ [cmdbytes]⟩
    by_cases hc : calcChecksum s.reads.response = 0
    · have hr := run_responseCode (d := Line.port) s.reads.response ⟨hl, hc⟩
        ⟨s.reads.after 2, s.sent ++ [cmdbytes]⟩
      simp only [run_bind, run_ite, run_pure] at hr
      simp [hl, hc, hr]
    · simpa [hl, hc] using ih ⟨s.reads.after 2, s.sent ++ [cmdbytes] ++ [preamble]⟩

theorem run_sendCmd (cmdbytes : Bytes) (s : Line) :
    ((sendCmd cmdbytes).run Line.port s).1 =
        (exchange retryCount s.reads).1.map (·, cmdbytes ++ [calcCheckByte cmdbytes]) ∧
      ((sendCmd cmdbytes).run Line.port s).2.reads = (exchange retryCount s.reads).2 := by
  obtain ⟨h1, h2⟩ := run_sendCmdLoop (cmdbytes ++ [calcCheckByte cmdbytes]) retryCount s
  simp only [sendCmd, run_bind, run_pure]
  rw [← h1, ← h2]
  generalize (sendCmdLoop (cmdbytes ++ [calcCheckByte cmdbytes]) retryCount).run Line.port s = r
  obtain ⟨e | a, t⟩ := r <;> exact ⟨rfl, rfl⟩

/-- An exchange that returns a response returns a usable one. -/
theorem usable_of_exchange {n : ℕ} {reads : Reads} {response : Bytes}
    (h : (exchange n reads).1 = .ok (some response)) : Usable response := by
  induction n generalizing reads with
  | zero => simp [exchange] at h
  | succ n ih =>
    rw [exchange] at h
    split at h
    case isTrue hu =>
      split at h
      · cases h
      · cases h; exact hu
    case isFalse => exact ih h

/-- The accepting branch of `send_read_cmd` returns the payload. -/
theorem output_eq {response : Bytes} (hr : ReadReply response) :
    ((List.range (firstByte response ^^^ 0x80).toNat).mapM fun y => item response (y + 2)) =
      pure (payload response) := by
  refine mapM_item ?_
  have := hr.2
  omega

theorem run_sendReadCmdLoop (n : ℕ) (cmdbytes : Bytes) (s : Line) :
    ((sendReadCmdLoop n cmdbytes).run Line.port s).1 = (readExchange n s.reads).1 ∧
      ((sendReadCmdLoop n cmdbytes).run Line.port s).2.reads = (readExchange n s.reads).2 := by
  induction n generalizing s cmdbytes with
  | zero => exact ⟨rfl, rfl⟩
  | succ n ih =>
    obtain ⟨h1, h2⟩ := run_sendCmd cmdbytes s
    have hu : ∀ response, (exchange retryCount s.reads).1 = .ok (some response) →
      Usable response := fun _ => usable_of_exchange
    simp only [sendReadCmdLoop, readExchange, run_bind]
    generalize exchange retryCount s.reads = x at h1 h2 hu
    generalize (sendCmd cmdbytes).run Line.port s = r at h1 h2
    obtain ⟨r, t⟩ := r
    obtain ⟨e | response, reads⟩ := x
    · obtain rfl : r = .error e := h1
      exact ⟨rfl, h2⟩
    obtain rfl : r = .ok (response, _) := h1
    obtain rfl : t.reads = reads := h2
    cases response with
    | none => exact ih _ t
    | some response =>
      have hne := (hu response rfl).1
      simp only [andThen_ok, List.length_eq_zero_iff, hne, if_false, item_zero hne, run_bind,
        run_pure, run_ite]
      by_cases ht : firstByte response &&& 0x80 = 0
      · simpa [ReadReply, ht] using ih _ t
      by_cases hl : ((firstByte response ^^^ 0x80).toNat : ℤ) = response.length - 3
      · have hr : ReadReply response := ⟨ht, hl⟩
        rw [if_neg ht, if_neg (by simpa using hl), if_pos hr, output_eq hr]
        exact ⟨rfl, rfl⟩
      · rw [if_neg ht, if_pos (by simpa using hl), if_neg fun hr => hl hr.2]
        exact ih _ t

/-! ### Exchanges that succeed at the first attempt, on any device -/

/-- A usable response to the first attempt is what `send_cmd` returns. -/
theorem run_sendCmd_first {cmdbytes response : Bytes} {s t u : σ}
    (hw : d (.write (cmdbytes ++ [calcCheckByte cmdbytes])) s = (.ok (), t))
    (hr : getResponse.run d t = (.ok response, u)) (hu : Usable response) (hn : ¬ Runt response) :
    (sendCmd cmdbytes).run d s =
      (.ok (some response, cmdbytes ++ [calcCheckByte cmdbytes]), u) := by
  have hc := run_responseCode (d := d) response hu u
  simp only [run_bind, run_ite, run_pure, hn, if_false] at hc
  simp only [sendCmd, retryCount, sendCmdLoop, sendBytes, run_bind, run_perform, hw, andThen_ok,
    hr, run_ite, List.length_eq_zero_iff, hu.1, hu.2, if_false, if_true, run_pure]
  rw [hc, andThen_ok]

/-- A read reply to the first attempt is what `send_read_cmd` unpacks. -/
theorem run_sendReadCmd_first {addrbyte : UInt8} {response : Bytes} {s t u : σ}
    (hw : d (.write [0x80, addrbyte, calcCheckByte [0x80, addrbyte]]) s = (.ok (), t))
    (hr : getResponse.run d t = (.ok response, u)) (hu : Usable response)
    (hread : ReadReply response) :
    (sendReadCmd addrbyte).run d s = (.ok (some (payload response)), u) := by
  have hc : (sendCmd [0x80, addrbyte]).run d s = (.ok (some response, _), u) :=
    run_sendCmd_first hw hr hu fun h => hread.1 h.1
  have hl : ¬ ((firstByte response ^^^ 0x80).toNat : ℤ) ≠ response.length - 3 := by
    simpa using hread.2
  simp only [sendReadCmd, retryCount, sendReadCmdLoop, run_bind, hc, andThen_ok,
    List.length_eq_zero_iff, hu.1, if_false, item_zero hu.1, run_pure, hread.1, run_ite]
  rw [if_neg hl, output_eq hread]
  rfl

theorem run_sendWriteCmd_first {length addrbyte : UInt8} {databytes response : Bytes} {s t u : σ}
    (hw : d (.write (Command.sendWriteCmd length addrbyte databytes).frame) s = (.ok (), t))
    (hr : getResponse.run d t = (.ok response, u)) (hu : Usable response) (hn : ¬ Runt response) :
    (sendWriteCmd length addrbyte databytes).run d s = (.ok (some response), u) := by
  rw [sendWriteCmd, run_bind, run_sendCmd_first hw hr hu hn]
  rfl

/-- What the commands return and how much they read depends on the incoming bytes only. -/
theorem port_simulates :
    Simulates (fun (s : Line) (reads : Reads) => s.reads = reads)
      (through Command.exchange Line.port) replies := by
  rintro c s _ rfl
  cases c with
  | sendPreamble => exact ⟨rfl, rfl⟩
  | sendReadCmd addrbyte => exact run_sendReadCmdLoop retryCount [0x80, addrbyte] s
  | sendWriteCmd length addrbyte databytes =>
    obtain ⟨h1, h2⟩ := run_sendCmd (length :: addrbyte :: databytes) s
    simp only [through, Command.exchange, sendWriteCmd, run_bind, replies, run_pure]
    rw [← h2]
    generalize (sendCmd (length :: addrbyte :: databytes)).run Line.port s = r at h1
    generalize exchange retryCount s.reads = x at h1 ⊢
    obtain ⟨r, t⟩ := r
    obtain ⟨e | response, reads⟩ := x <;> obtain rfl : r = _ := h1 <;> exact ⟨rfl, rfl⟩

end BuffaloNas.Micon
