import BuffaloNas.Micon.LateReply

/-! Answers that come in full: what `send_cmd` makes of any others, and what becomes of these. -/
namespace BuffaloNas.Micon
open Interaction Program

/-! ### What `send_cmd` returns, whatever the line delivers -/

/-- A frame: the length that its first byte announces, and byte sum 0 mod 256. -/
def CompleteFrame (response : Bytes) : Prop := Whole response ∧ byteSum response % 256 = 0

/-- Nothing is raised, and what is returned is `None` or a complete frame. -/
def SoundOutcome : Except PyError (Option Bytes × Bytes) → Prop
  | .ok (some response, _) => CompleteFrame response
  | .ok (none, _) => True
  | .error _ => False

/-- The first read of `get_response`. -/
def Reads.first (reads : Reads) : Bytes := (reads 0).take 1

/-- The second one, of as many bytes as the first byte announces, or of 32. -/
def Reads.more (reads : Reads) : Bytes :=
  (reads 1).take (match reads.first with
    | [b] => (b &&& 0x7F).toNat + 2
    | _ => 32)

/-- Neither read of an attempt was cut short: the second brought all that the first byte
announces or, where no first byte came in time, a frame from its first byte to its last. -/
def InFull (reads : Reads) : Prop :=
  match reads.first with
  | [b] => reads.more.length = (b &&& 0x7F).toNat + 2
  | _ => reads.more.length = (firstByte reads.more &&& 0x7F).toNat + 3

instance (reads : Reads) : Decidable (InFull reads) := by
  unfold InFull
  split <;> infer_instance

/-- Attempt `k` is the first of `n` whose bytes pass for an answer. -/
def FirstUsable (n : ℕ) (reads : Reads) (k : ℕ) : Prop :=
  k < n ∧ Usable (reads.after (2 * k)).response ∧
    ∀ j < k, ¬ Usable (reads.after (2 * j)).response

theorem response_eq (reads : Reads) : reads.response = reads.first ++ reads.more := rfl

theorem first_cases (reads : Reads) : reads.first = [] ∨ ∃ b, reads.first = [b] := by
  unfold Reads.first
  cases reads 0 with
  | nil => exact .inl rfl
  | cons b bs => exact .inr ⟨b, rfl⟩

/-- The reads of a usable answer are not cut short exactly if it is complete. -/
theorem completeFrame_iff {reads : Reads} (hu : Usable reads.response) :
    CompleteFrame reads.response ↔ InFull reads := by
  have hsum : byteSum reads.response % 256 = 0 := by
    rw [← calcChecksum_eq]
    exact hu.2
  rw [CompleteFrame, Whole, and_iff_left hsum, and_iff_right hu.1, response_eq, InFull]
  rcases first_cases reads with h | ⟨b, h⟩
  · simp only [h, List.nil_append]
  · simp only [h, List.singleton_append, List.length_cons, firstByte, List.headD_cons]
    omega

theorem not_runt {response : Bytes} (h : Whole response) : ¬ Runt response := by
  rintro ⟨-, hl⟩
  have := h.2
  omega

theorem after_attempts (reads : Reads) (k : ℕ) :
    (reads.after 2).after (2 * k) = reads.after (2 * (k + 1)) := by
  funext i
  simp only [Reads.after]
  congr 1

theorem firstUsable_succ {n k : ℕ} {reads : Reads} (h : ¬ Usable reads.response) :
    FirstUsable n (reads.after 2) k ↔ FirstUsable (n + 1) reads (k + 1) := by
  simp only [FirstUsable, after_attempts, Nat.add_lt_add_iff_right]
  refine and_congr_right fun _ => and_congr_right fun _ => ?_
  constructor
  · intro hno j hj
    cases j with
    | zero => exact h
    | succ j => exact hno j (by omega)
  · exact fun hno j hj => hno (j + 1) (by omega)

/-- The first usable answer decides; without one, nothing is returned. -/
theorem soundOutcome_exchange (n : ℕ) (reads : Reads) (cmdbytes : Bytes) :
    SoundOutcome ((exchange n reads).1.map (·, cmdbytes)) ↔
      ∀ k, FirstUsable n reads k → InFull (reads.after (2 * k)) := by
  induction n generalizing reads with
  | zero =>
    refine iff_of_true trivial ?_
    rintro k ⟨hk, -⟩
    omega
  | succ n ih =>
    rw [exchange]
    by_cases hu : Usable reads.response
    · have h0 : FirstUsable (n + 1) reads 0 := ⟨by omega, hu, fun j hj => by omega⟩
      have hfirst : (∀ k, FirstUsable (n + 1) reads k → InFull (reads.after (2 * k))) ↔
          InFull reads := by
        constructor
        · exact fun h => h 0 h0
        · rintro h k ⟨-, -, hno⟩
          obtain rfl : k = 0 := by
            by_contra hk
            exact hno 0 (by omega) hu
          exact h
      rw [if_pos hu, hfirst, ← completeFrame_iff hu]
      by_cases hr : Runt reads.response
      · simp only [if_pos hr]
        exact iff_of_false id fun h => not_runt h.1 hr
      · simp only [if_neg hr]
        exact Iff.rfl
    · rw [if_neg hu, ih]
      constructor
      · intro h k hk
        cases k with
        | zero => exact absurd hk.2.1 hu
        | succ k =>
          have := h k ((firstUsable_succ hu).mpr hk)
          rwa [after_attempts] at this
      · intro h k hk
        rw [after_attempts]
        exact h (k + 1) ((firstUsable_succ hu).mp hk)

/-- `send_cmd` raises nothing and returns `None` or a complete frame, exactly if the first of its
three attempts that brings nonempty bytes of sum 0 mod 256 is not cut short. -/
theorem sendCmd_sound_iff (cmdbytes : Bytes) (s : Line) :
    SoundOutcome ((sendCmd cmdbytes).run Line.port s).1 ↔
      ∀ k, FirstUsable retryCount s.reads k → InFull (s.reads.after (2 * k)) := by
  rw [(run_sendCmd cmdbytes s).1]
  exact soundOutcome_exchange retryCount s.reads _

/-- One zero byte and then silence. -/
def zeroByte : Line := ⟨fun i => if i = 0 then [0x00] else [], []⟩

/-- The zero byte passes the checksum test, and has no response code to look up. -/
theorem not_sendCmd_sound :
    ((sendCmd [0x80, 0x83]).run Line.port zeroByte).1 = .error .indexError ∧
      ¬ ∀ cmdbytes s, SoundOutcome ((sendCmd cmdbytes).run Line.port s).1 := by
  have hrun : ((sendCmd [0x80, 0x83]).run Line.port zeroByte).1 = .error .indexError := by
    rw [(run_sendCmd [0x80, 0x83] zeroByte).1]
    rfl
  refine ⟨hrun, fun h => ?_⟩
  have hs := h [0x80, 0x83] zeroByte
  rw [hrun] at hs
  exact hs

/-! ### Frames that arrive in full -/

/-- A port that delivers the bytes of a stream without timeouts. -/
structure Wire where
  incoming : Bytes
  sent : List Bytes

def Wire.port : Device PortOp PortOp.Answer PyError Wire
  | .write output, s => (.ok (), { s with sent := s.sent ++ [output] })
  | .read size, s => (.ok (s.incoming.take size), { s with incoming := s.incoming.drop size })

@[simp] theorem wire_write (output : Bytes) (s : Wire) :
    Wire.port (.write output) s = (.ok (), { s with sent := s.sent ++ [output] }) := rfl

@[simp] theorem wire_read (size : ℕ) (s : Wire) : Wire.port (.read size) s =
    (.ok (s.incoming.take size), { s with incoming := s.incoming.drop size }) := rfl

/-- `response[a:b]` -/
def slice (response : Bytes) (a b : ℕ) : Bytes := (response.drop a).take (b - a)

/-- A whole frame is taken off the stream, and nothing of what follows it. -/
theorem run_getResponse_whole {frame : Bytes} (h : Whole frame) (t : Bytes) (sent : List Bytes) :
    getResponse.run Wire.port ⟨frame ++ t, sent⟩ = (.ok frame, ⟨t, sent⟩) := by
  cases frame with
  | nil => exact absurd rfl h.1
  | cons b rest =>
    have hl : (b &&& 0x7F).toNat + 2 = rest.length := by
      have := h.2
      simp only [List.length_cons, firstByte, List.headD_cons] at this
      omega
    simp only [getResponse, run_bind, run_perform, wire_read, andThen_ok, List.cons_append,
      List.take_succ_cons, List.take_zero, List.drop_succ_cons, List.drop_zero, hl, List.take_left',
      List.drop_left', run_pure, List.nil_append]

/-- Lengths up to 127, as the first byte of a write and of a read reply. -/
theorem header_length {n : ℕ} (h : n ≤ 127) :
    (UInt8.ofNat n &&& 0x7F).toNat = n ∧ (0x80 ||| UInt8.ofNat n : UInt8) =
      UInt8.ofNat (n + 0x80) := by
  have key : ∀ n : Fin 128, (UInt8.ofNat n &&& 0x7F).toNat = n ∧
      (0x80 ||| UInt8.ofNat n : UInt8) = UInt8.ofNat (n + 0x80) := by decide +kernel
  exact key ⟨n, by omega⟩

theorem whole_writeFrame {d : Bytes} (h : d.length ≤ 127) (a : UInt8) :
    Whole (Command.sendWriteCmd (UInt8.ofNat d.length) a d).frame := by
  refine ⟨by simp [Command.frame], ?_⟩
  have hf : firstByte (Command.sendWriteCmd (UInt8.ofNat d.length) a d).frame =
      UInt8.ofNat d.length := rfl
  rw [hf, (header_length h).1]
  simp [Command.frame]

/-- A read reply: `0x80|len(d)`, the address, the data and the check byte. -/
def replyFrame (a : UInt8) (d : Bytes) : Bytes :=
  checked ((0x80 ||| UInt8.ofNat d.length) :: a :: d)

theorem length_replyFrame (a : UInt8) (d : Bytes) : (replyFrame a d).length = d.length + 3 := by
  simp [replyFrame, checked]

theorem replyFrame_eq {d : Bytes} (h : d.length ≤ 127) (a : UInt8) :
    replyFrame a d = Reply.frame ⟨true, a, d, by omega⟩ := by
  rw [replyFrame, (header_length h).2]
  rfl

/-- What has been written stays written. -/
theorem sent_grows {α : Type} (p : Serial α) (s : Line) :
    ∃ rest, (p.run Line.port s).2.sent = s.sent ++ rest := by
  have hall := always_of_forall (d := Line.port) (P := fun _ _ => True) (s := s)
    (fun _ _ => trivial) p
  refine hall.run_invariant (I := fun t => ∃ rest, t.sent = s.sent ++ rest) ?_ ⟨[], by simp⟩
  rintro o t - ⟨rest, ht⟩
  cases o with
  | read size => exact ⟨rest, ht⟩
  | write output => exact ⟨rest ++ [output], by simp [ht]⟩

/-- Whatever the port delivers, the frame is the first thing that `send_write_cmd` writes. -/
theorem sent_sendWriteCmd (length addrbyte : UInt8) (databytes : Bytes) (s : Line) :
    ∃ rest, ((sendWriteCmd length addrbyte databytes).run Line.port s).2.sent =
      s.sent ++ (Command.sendWriteCmd length addrbyte databytes).frame :: rest := by
  obtain ⟨k, hk⟩ : ∃ k : Unit → Serial (Option Bytes), sendWriteCmd length addrbyte databytes =
      sendBytes (Command.sendWriteCmd length addrbyte databytes).frame >>= k := by
    simp only [sendWriteCmd, sendCmd, retryCount, sendCmdLoop, bind_assoc]
    exact ⟨_, rfl⟩
  rw [hk, sendBytes, run_bind, run_perform, port_write, andThen_ok]
  obtain ⟨rest, hrest⟩ := sent_grows (k ()) { s with
    sent := s.sent ++ [(Command.sendWriteCmd length addrbyte databytes).frame] }
  exact ⟨rest, by rw [hrest, List.append_assoc, List.singleton_append]⟩

/-- A read reply on the stream is what a read command returns, whatever address it asks for. -/
theorem run_sendReadCmd_reply {d : Bytes} (h : d.length ≤ 127) (a addrbyte : UInt8) (t : Bytes)
    (sent : List Bytes) :
    (sendReadCmd addrbyte).run Wire.port ⟨replyFrame a d ++ t, sent⟩ =
      (.ok (some d), ⟨t, sent ++ [(Command.sendReadCmd addrbyte).frame]⟩) := by
  have hwhole : Whole (replyFrame a d) := by
    rw [replyFrame_eq h]
    exact Reply.whole_frame _
  have hpayload : payload (replyFrame a d) = d := by
    rw [replyFrame_eq h]
    exact Reply.payload_frame rfl
  have hread : ReadReply (replyFrame a d) := by
    have hr := Reply.header_eq ⟨true, a, d, by omega⟩
    have hf : firstByte (replyFrame a d) = Reply.header ⟨true, a, d, by omega⟩ := by
      rw [replyFrame_eq h]
      rfl
    refine ⟨?_, ?_⟩
    · rw [hf]
      exact hr.2.1.mpr rfl
    · have hl : ((firstByte (replyFrame a d) ^^^ 0x80).toNat : ℤ) = d.length := by
        rw [hf, hr.2.2 rfl, hr.1]
      rw [hl, length_replyFrame]
      omega
  have hwrite := wire_write (Command.sendReadCmd addrbyte).frame ⟨replyFrame a d ++ t, sent⟩
  rw [run_sendReadCmd_first hwrite (run_getResponse_whole hwhole t _) (usable_checked _) hread,
    hpayload]

/-- Builder, reader and extractor agree on every frame: a write frame is read back by
`get_response` as it was written, and the data of a read reply by `send_read_cmd` at the first
attempt; what follows on the stream stays unread. -/
theorem frames_roundTrip (a addrbyte : UInt8) (d t : Bytes) (h : d.length ≤ 127) :
    (∃ frame,
      (∀ s : Line, ∃ rest, ((sendWriteCmd (UInt8.ofNat d.length) a d).run Line.port s).2.sent =
        s.sent ++ frame :: rest) ∧
      (∀ sent, getResponse.run Wire.port ⟨frame ++ t, sent⟩ = (.ok frame, ⟨t, sent⟩)) ∧
      calcChecksum frame = 0 ∧ slice frame 2 (2 + d.length) = d) ∧
    (∀ sent, (sendReadCmd addrbyte).run Wire.port ⟨replyFrame a d ++ t, sent⟩ =
      (.ok (some d), ⟨t, sent ++ [(Command.sendReadCmd addrbyte).frame]⟩)) ∧
    (replyFrame a d).length = d.length + 3 := by
  refine ⟨⟨(Command.sendWriteCmd (UInt8.ofNat d.length) a d).frame, ?_, ?_, ?_, ?_⟩, ?_, ?_⟩
  · exact sent_sendWriteCmd (UInt8.ofNat d.length) a d
  · exact run_getResponse_whole (whole_writeFrame h a) t
  · exact calcChecksum_checked (UInt8.ofNat d.length :: a :: d)
  · simp [slice, Command.frame]
  · exact run_sendReadCmd_reply h a addrbyte t
  · exact length_replyFrame a d

/-- Two bytes for address 0x33, with a byte of the next frame behind. -/
theorem frames_roundTrip_two :
    getResponse.run Wire.port ⟨[0x02, 0x33, 0x10, 0x20, 0x9B] ++ [0x80], []⟩ =
        (.ok [0x02, 0x33, 0x10, 0x20, 0x9B], ⟨[0x80], []⟩) ∧
      (sendReadCmd 0x33).run Wire.port ⟨replyFrame 0x33 [0x10, 0x20] ++ [0x80], []⟩ =
        (.ok (some [0x10, 0x20]), ⟨[0x80], [[0x80, 0x33, 0x4D]]⟩) := by
  obtain ⟨-, hread, -⟩ := frames_roundTrip 0x33 0x33 [0x10, 0x20] [0x80] (by decide)
  exact ⟨rfl, hread []⟩

end BuffaloNas.Micon
