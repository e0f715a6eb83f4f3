import BuffaloNas.Micon.Line

/-! The stream of bytes that the commands put on the wire, for every behaviour of the port. -/
namespace BuffaloNas.Micon
open Interaction Program

/-- `P` holds of what an operation writes. -/
def writes (P : Bytes → Prop) : PortOp → Line → Prop
  | .write output, _ => P output
  | .read _, _ => True

/-- One piece of a proper command stream. -/
def Piece (output : Bytes) : Prop := output = preamble ∨ WellFormed output

/-- The first exchange of a read command settles it: by a read reply, or by a runt. -/
def SettledAtOnce (reads : Reads) : Prop :=
  ∀ r, (exchange retryCount reads).1 = .ok r → ∃ response, r = some response ∧ ReadReply response

/-- A command that goes out well: no second round, and as many bytes as announced. -/
def Clean : Command → Reads → Prop
  | .sendPreamble, _ => True
  | .sendReadCmd _, reads => SettledAtOnce reads
  | .sendWriteCmd length _ databytes, _ => length ≤ 0x80 ∧ databytes.length = announced length

variable {P : Bytes → Prop} {cmdbytes : Bytes} {s : Line}

theorem always_getResponse : getResponse.Always Line.port (writes P) s := by
  simp [getResponse, writes]

theorem always_item (bs : Bytes) (i : ℕ) : (item bs i).Always Line.port (writes P) s := by
  rw [item]
  cases bs[i]? <;> simp

/-- Every attempt writes the same buffer, and preambles between attempts. -/
theorem always_sendCmdLoop (hP : P preamble) (n : ℕ) :
    (sendCmdLoop cmdbytes (n + 1)).Always Line.port (writes P) s ↔ P cmdbytes := by
  have loop : P cmdbytes → ∀ n s, (sendCmdLoop cmdbytes n).Always Line.port (writes P) s := by
    intro hc n
    induction n with
    | zero => intro s; simp [sendCmdLoop]
    | succ n ih =>
      intro s
      simp only [sendCmdLoop, sendBytes, sendPreamble, always_bind, always_perform, always_ite]
      refine ⟨hc, fun _ _ => ⟨always_getResponse, fun response _ => ?_⟩⟩
      split
      · exact ih _
      split
      · refine ⟨always_item _ _, fun first _ => ?_⟩
        split <;> simp [always_item]
      · exact ⟨hP, fun _ _ => ih _⟩
  refine ⟨fun h => ?_, fun hc => loop hc _ s⟩
  simp only [sendCmdLoop, sendBytes, always_bind, always_perform] at h
  exact h.1

theorem always_sendCmd (hP : P preamble) :
    (sendCmd cmdbytes).Always Line.port (writes P) s ↔
      P (cmdbytes ++ [calcCheckByte cmdbytes]) := by
  simp only [sendCmd, always_bind, always_pure, implies_true, and_true]
  exact always_sendCmdLoop hP 2

theorem always_sendWriteCmd (hP : P preamble) (length addrbyte : UInt8) (databytes : Bytes) :
    (sendWriteCmd length addrbyte databytes).Always Line.port (writes P) s ↔
      P (Command.sendWriteCmd length addrbyte databytes).frame := by
  simp only [sendWriteCmd, always_bind, always_pure, implies_true, and_true]
  exact always_sendCmd hP

/-- The part of `send_read_cmd` that follows one exchange, with the buffer it left. -/
def afterExchange (x : ℕ) (cmdbytes : Bytes) (response : Option Bytes) : Serial (Option Bytes) :=
  match response with
  | none => sendReadCmdLoop x cmdbytes
  | some response =>
    if ReadReply response then return some (payload response) else sendReadCmdLoop x cmdbytes

/-- One round of `send_read_cmd`: an exchange, then the payload or another round. -/
theorem always_sendReadCmdLoop (n : ℕ) :
    (sendReadCmdLoop (n + 1) cmdbytes).Always Line.port (writes P) s ↔
      (sendCmd cmdbytes).Always Line.port (writes P) s ∧
        ∀ r, (exchange retryCount s.reads).1 = .ok r →
          (afterExchange n (cmdbytes ++ [calcCheckByte cmdbytes]) r).Always Line.port (writes P)
            ((sendCmd cmdbytes).run Line.port s).2 := by
  rw [sendReadCmdLoop, always_bind, (run_sendCmd cmdbytes s).1]
  refine and_congr_right fun _ => ?_
  have hu : ∀ response, (exchange retryCount s.reads).1 = .ok (some response) →
    Usable response := fun _ => usable_of_exchange
  generalize exchange retryCount s.reads = x at hu ⊢
  obtain ⟨e | r, reads⟩ := x
  · simp [Except.map]
  cases r with
  | none => simp [Except.map, afterExchange]
  | some response =>
    have hne := (hu response rfl).1
    simp only [Except.map, Except.ok.injEq, forall_eq', afterExchange, item_zero hne,
      List.length_eq_zero_iff, hne, if_false, always_bind, always_pure, run_pure, true_and]
    by_cases ht : firstByte response &&& 0x80 = 0
    · simp [ReadReply, ht]
    by_cases hl : ((firstByte response ^^^ 0x80).toNat : ℤ) = response.length - 3
    · have hr : ReadReply response := ⟨ht, hl⟩
      rw [if_neg ht, if_neg (by simpa using hl), if_pos hr, output_eq hr]
      simp
    · rw [if_neg ht, if_pos (by simpa using hl), if_neg fun hr => hl hr.2]

theorem wellFormed_readFrame (addrbyte : UInt8) :
    WellFormed (Command.sendReadCmd addrbyte).frame :=
  ⟨by decide, rfl, byteSum_checked [0x80, addrbyte]⟩

theorem wellFormed_writeFrame (length addrbyte : UInt8) (databytes : Bytes) :
    WellFormed (Command.sendWriteCmd length addrbyte databytes).frame ↔
      length ≤ 0x80 ∧ databytes.length = announced length := by
  have hs := byteSum_checked (length :: addrbyte :: databytes)
  simp only [Command.frame, List.cons_append] at hs ⊢
  simp only [WellFormed, hs, and_true, List.length_cons, List.length_append, List.length_nil]
  exact and_congr_right fun _ => by omega

theorem piece_writeFrame (length addrbyte : UInt8) (databytes : Bytes) :
    Piece (Command.sendWriteCmd length addrbyte databytes).frame ↔
      length ≤ 0x80 ∧ databytes.length = announced length := by
  rw [← wellFormed_writeFrame length addrbyte databytes, Piece, or_iff_right]
  intro h
  have hs := byteSum_checked (length :: addrbyte :: databytes)
  have hp : byteSum preamble % 256 ≠ 0 := by decide
  exact hp (h ▸ hs)

/-- The buffer that a further round starts from already holds a whole frame. -/
theorem not_piece_grown (addrbyte : UInt8) :
    ¬ Piece ((Command.sendReadCmd addrbyte).frame ++
      [calcCheckByte (Command.sendReadCmd addrbyte).frame]) := by
  rintro (h | h)
  · exact absurd (congrArg List.length h) (by simp [Command.frame, preamble])
  · exact absurd h.2.1 (by simp [announced])

/-- A second round of a read command puts a malformed frame on the wire. -/
theorem not_always_secondRound (addrbyte : UInt8) (n : ℕ) :
    ¬ (sendReadCmdLoop (n + 1) (Command.sendReadCmd addrbyte).frame).Always Line.port
      (writes Piece) s := by
  rw [always_sendReadCmdLoop, always_sendCmd (Or.inl rfl)]
  exact fun h => not_piece_grown addrbyte h.1

theorem always_sendReadCmd (addrbyte : UInt8) :
    (sendReadCmd addrbyte).Always Line.port (writes Piece) s ↔ SettledAtOnce s.reads := by
  have hf : Piece (Command.sendReadCmd addrbyte).frame := Or.inr (wellFormed_readFrame addrbyte)
  rw [sendReadCmd, retryCount, always_sendReadCmdLoop, always_sendCmd (Or.inl rfl)]
  refine (and_iff_right hf).trans (forall₂_congr fun r _ => ?_)
  have hsecond := not_always_secondRound (s := ((sendCmd [0x80, addrbyte]).run Line.port s).2)
    addrbyte 1
  cases r with
  | none => exact iff_of_false hsecond (by simp)
  | some response =>
    by_cases hr : ReadReply response
    · simp [afterExchange, hr]
    · rw [afterExchange, if_neg hr]
      exact iff_of_false hsecond (by simpa using hr)

/-- A command writes proper pieces only, exactly when it is clean. -/
theorem always_exchange (c : Command) :
    c.exchange.Always Line.port (writes Piece) s ↔ Clean c s.reads := by
  cases c with
  | sendPreamble => simp [Command.exchange, sendPreamble, sendBytes, writes, Piece, Clean]
  | sendReadCmd addrbyte => exact always_sendReadCmd addrbyte
  | sendWriteCmd length addrbyte databytes =>
    exact (always_sendWriteCmd (Or.inl rfl) ..).trans (piece_writeFrame ..)

/-- A clean command writes nothing but its one frame and preambles, however often it retries. -/
theorem always_exchange_frame (c : Command) (s : Line) (h : Clean c s.reads) :
    c.exchange.Always Line.port (writes fun output => output = preamble ∨ output = c.frame) s := by
  cases c with
  | sendPreamble => simp [Command.exchange, sendPreamble, sendBytes, writes]
  | sendReadCmd addrbyte =>
    rw [Command.exchange, sendReadCmd, retryCount, always_sendReadCmdLoop,
      always_sendCmd (Or.inl rfl)]
    refine ⟨Or.inr rfl, fun r hr => ?_⟩
    obtain ⟨response, rfl, hread⟩ := h r hr
    simp [afterExchange, hread]
  | sendWriteCmd length addrbyte databytes =>
    exact (always_sendWriteCmd (Or.inl rfl) ..).mpr (Or.inr rfl)

/-- The calls as they reach the port. -/
def onWire (calls : List Call) : List (Serial Unit) :=
  (calls.map Call.program).map (interp Command.exchange)

/-- For every sequence of calls and every behaviour of the port. -/
theorem always_onWire (calls : List Call) (s : Line) :
    AlwaysAll Line.port (writes Piece) (onWire calls) s ↔
      AlwaysAll replies Clean (calls.map Call.program) s.reads := by
  rw [onWire, alwaysAll_interp]
  refine alwaysAll_simulates port_simulates ?_ _ rfl
  rintro c s _ rfl
  exact always_exchange c

/-- In a clean run every command keeps to its one frame. -/
theorem always_oneFrame (calls : List Call) (s : Line)
    (h : AlwaysAll replies Clean (calls.map Call.program) s.reads) :
    AlwaysAll (through Command.exchange Line.port)
      (fun c s => c.exchange.Always Line.port
        (writes fun output => output = preamble ∨ output = c.frame) s)
      (calls.map Call.program) s := by
  have hc : AlwaysAll (through Command.exchange Line.port) (fun c s => Clean c s.reads)
      (calls.map Call.program) s := by
    refine (alwaysAll_simulates port_simulates ?_ _ rfl).mpr h
    rintro c s _ rfl
    exact Iff.rfl
  exact hc.mono always_exchange_frame

theorem sent_pieces (o : PortOp) (s : Line) (ho : writes Piece o s)
    (hs : ∀ output ∈ s.sent, Piece output) : ∀ output ∈ (Line.port o s).2.sent, Piece output := by
  cases o with
  | read size => exact hs
  | write output =>
    intro b hb
    rcases List.mem_append.mp hb with hb | hb
    · exact hs b hb
    · rw [List.mem_singleton.mp hb]; exact ho

/-- The writes are proper pieces exactly in the clean runs; there the stream is a command stream
and no command ever changes its frame between attempts. -/
theorem commandStream_of_clean (calls : List Call) (reads : Reads) :
    (AlwaysAll Line.port (writes Piece) (onWire calls) ⟨reads, []⟩ ↔
        AlwaysAll replies Clean (calls.map Call.program) reads) ∧
      (AlwaysAll replies Clean (calls.map Call.program) reads →
        CommandStream (runAll Line.port (onWire calls) ⟨reads, []⟩).2.sent.flatten ∧
        AlwaysAll (through Command.exchange Line.port)
          (fun c s => c.exchange.Always Line.port
            (writes fun output => output = preamble ∨ output = c.frame) s)
          (calls.map Call.program) ⟨reads, []⟩) := by
  refine ⟨always_onWire calls ⟨reads, []⟩, fun h => ⟨?_, ?_⟩⟩
  · have hw := (always_onWire calls ⟨reads, []⟩).mpr h
    exact commandStream_flatten (hw.run_invariant sent_pieces (by simp))
  · exact always_oneFrame calls ⟨reads, []⟩ h

/-- One exchange that is answered at once, by a read reply with two data bytes. -/
def answeredAtOnce : Reads
  | 0 => [0x82]
  | 1 => [0x83, 0x12, 0x34, 0xB5]
  | _ => []

theorem settledAtOnce_answeredAtOnce : SettledAtOnce answeredAtOnce := by
  have he : (exchange retryCount answeredAtOnce).1 = .ok (some [0x82, 0x83, 0x12, 0x34, 0xB5]) :=
    rfl
  intro r hr
  obtain rfl := Except.ok.inj (he.symm.trans hr)
  exact ⟨_, rfl, by decide⟩

theorem commandStream_answeredAtOnce :
    CommandStream
      (runAll Line.port (onWire [.sendReadCmd 0x83]) ⟨answeredAtOnce, []⟩).2.sent.flatten := by
  refine ((commandStream_of_clean [.sendReadCmd 0x83] answeredAtOnce).2 ⟨?_, trivial⟩).1
  simpa [Call.program, readCmd, Clean] using settledAtOnce_answeredAtOnce

/-- A silent micon: the second round of the version request sends a four-byte frame. -/
theorem not_commandStream_silent :
    ¬ CommandStream
      (runAll Line.port (onWire [.sendReadCmd 0x83]) ⟨fun _ => [], []⟩).2.sent.flatten := by
  intro h
  have hs := splits_of_commandStream h 36 (by decide)
  exact absurd hs (by decide)

end BuffaloNas.Micon
