import BuffaloNas.Interaction.Triple
import BuffaloNas.Micon.Line

/-! A micon that answers every command, but perhaps late, and whose data a read then returns. -/
namespace BuffaloNas.Micon
open Interaction Program

/-! ### Replies in order, after any delay -/

/-- A correct reply: the kind and the address of the command it answers, and its data. -/
structure Reply where
  isRead : Bool
  addr : UInt8
  payload : Bytes
  short : payload.length < 128

def Reply.header (r : Reply) : UInt8 :=
  UInt8.ofNat (r.payload.length + if r.isRead then 0x80 else 0)

def Reply.frame (r : Reply) : Bytes := checked (r.header :: r.addr :: r.payload)

/-- The server and the line from it; `arrivals` and `answers` are its future. -/
structure Server where
  arrivals : ℕ → ℕ
  answers : ℕ → Bytes
  arrived : Bytes
  inFlight : Bytes
  replied : List Reply

/-- The reply bytes that no read has returned yet. -/
def Server.unread (s : Server) : Bytes := s.arrived ++ s.inFlight

def Server.start (arrivals : ℕ → ℕ) (answers : ℕ → Bytes) : Server := ⟨arrivals, answers, [], [], []⟩

theorem length_take_lt (n : ℕ) (bytes : Bytes) : (bytes.take n).length < n + 1 :=
  Nat.lt_succ_of_le (List.length_take_le n bytes)

/-- The reply to a chunk that was written: preambles have none. -/
def Server.reply (s : Server) : Bytes → Option Reply
  | h :: a :: rest =>
    if h :: a :: rest = preamble then none
    else some ⟨decide (h &&& 0x80 ≠ 0), a, (s.answers 0).take 127, length_take_lt 127 _⟩
  | _ => none

/-- `read(n)` returns at most `n` of the bytes that have arrived when its timeout ends. -/
def Server.port : Device PortOp PortOp.Answer PyError Server
  | .write output, s =>
    match s.reply output with
    | some r => (.ok (), { s with
        answers := fun i => s.answers (i + 1)
        inFlight := s.inFlight ++ r.frame
        replied := s.replied ++ [r] })
    | none => (.ok (), s)
  | .read size, s =>
    let arrived := s.arrived ++ s.inFlight.take (s.arrivals 0)
    (.ok (arrived.take size), { s with
      arrivals := fun i => s.arrivals (i + 1)
      arrived := arrived.drop size
      inFlight := s.inFlight.drop (s.arrivals 0) })

/-! ### Whole replies on the line -/

/-- A response of the length that its first byte announces. -/
def Whole (response : Bytes) : Prop :=
  response ≠ [] ∧ response.length = (firstByte response &&& 0x7F).toNat + 3

theorem firstByte_head {xs ys : Bytes} (h : xs <+: ys) (hx : xs ≠ []) :
    firstByte ys = firstByte xs := by
  obtain ⟨zs, rfl⟩ := h
  cases xs with
  | nil => exact absurd rfl hx
  | cons x xs => rfl

/-- The line begins with one whole response only. -/
theorem Whole.eq_take {xs ys : Bytes} (hx : Whole xs) (h : xs <+: ys) :
    xs = ys.take ((firstByte ys &&& 0x7F).toNat + 3) := by
  rw [firstByte_head h hx.1, ← hx.2]
  exact List.prefix_iff_eq_take.mp h

theorem Reply.header_eq (r : Reply) :
    (r.header &&& 0x7F).toNat = r.payload.length ∧
      (r.header &&& 0x80 ≠ 0 ↔ r.isRead) ∧ (r.isRead → r.header ^^^ 0x80 = r.header &&& 0x7F) := by
  have key : ∀ n : Fin 128, ∀ isRead : Bool,
      let h := UInt8.ofNat (n + if isRead then 0x80 else 0)
      (h &&& 0x7F).toNat = n ∧ (h &&& 0x80 ≠ 0 ↔ isRead) ∧
        (isRead → h ^^^ 0x80 = h &&& 0x7F) := by decide +kernel
  exact key ⟨r.payload.length, r.short⟩ r.isRead

theorem Reply.whole_frame (r : Reply) : Whole r.frame := by
  refine ⟨by simp [frame, checked], ?_⟩
  have h : firstByte r.frame = r.header := rfl
  rw [h, r.header_eq.1]
  simp [frame, checked]

theorem Reply.payload_frame {r : Reply} (hr : r.isRead) : Micon.payload r.frame = r.payload := by
  have h : firstByte r.frame = r.header := rfl
  rw [Micon.payload, h, r.header_eq.2.2 hr, r.header_eq.1]
  simp [frame, checked]

theorem ReadReply.whole {response : Bytes} (hu : Usable response) (hr : ReadReply response) :
    Whole response := by
  have key : ∀ b : Fin 256, UInt8.ofFin b &&& 0x80 ≠ 0 →
      UInt8.ofFin b ^^^ 0x80 = UInt8.ofFin b &&& 0x7F := by decide +kernel
  refine ⟨hu.1, ?_⟩
  have hx : firstByte response ^^^ 0x80 = firstByte response &&& 0x7F :=
    key (firstByte response).toFin hr.1
  have h := hr.2
  rw [hx] at h
  omega

/-- What the checks of `send_cmd` and `send_read_cmd` accept at the head of the line. -/
def BeginsAccepted (bytes : Bytes) : Prop :=
  Usable (bytes.take ((firstByte bytes &&& 0x7F).toNat + 3)) ∧
    ReadReply (bytes.take ((firstByte bytes &&& 0x7F).toNat + 3))

/-! ### Read commands written while no other reply can be taken for theirs -/

/-- When a read command is written, the bytes that are still unread are none, or begin with a
reply of that address, or begin, own reply included, with nothing that passes the checks. -/
def Current : PortOp → Server → Prop
  | .write chunk, s => ∀ a rest, chunk = 0x80 :: a :: rest →
      s.unread = [] ∨ (∃ r ∈ s.replied, r.isRead ∧ r.addr = a ∧ r.frame <+: s.unread) ∨
        ¬ BeginsAccepted (Server.port (.write chunk) s).2.unread
  | .read _, _ => True

def Command.call (c : Command) : Serial Unit := do let _ ← c.exchange

/-- Every read command of the run that returns data returns that of a reply from its address. -/
def ReadsOwn (calls : List Command) (s : Server) : Prop :=
  ∀ before a after, calls = before ++ .sendReadCmd a :: after →
    let t := (runAll Server.port (before.map Command.call) s).2
    ∀ data, ((sendReadCmd a).run Server.port t).1 = .ok (some data) →
      ∃ r ∈ ((sendReadCmd a).run Server.port t).2.replied,
        r.isRead ∧ r.addr = a ∧ r.payload = data

section Commands
variable {σ : Type} {d : Device PortOp PortOp.Answer PyError σ} {P : PortOp → σ → Prop}
  {Q : Bytes → σ → Prop}

/-- What holds of the usable response to each attempt holds of the one that is returned. -/
theorem yields_sendCmdLoop {cmdbytes : Bytes}
    (hq : ∀ s, (sendBytes cmdbytes >>= fun _ => getResponse).Yields d P s
      fun response t => Usable response → Q response t) (n : ℕ) (s : σ) :
    (sendCmdLoop cmdbytes n).Yields d P s
      fun result t => ∀ response, result = some response → Usable response ∧ Q response t := by
  induction n generalizing s with
  | zero => exact yields_pure fun response h => by cases h
  | succ n ih =>
    have hstep : sendCmdLoop cmdbytes (n + 1) =
        (sendBytes cmdbytes >>= fun _ => getResponse) >>= fun response =>
          if response.length = 0 then sendCmdLoop cmdbytes n
          else if calcChecksum response = 0 then (do
            let first ← item response 0
            if first &&& 0x80 = 0 then let _ ← item response 2
            return some response)
          else sendPreamble >>= fun _ => sendCmdLoop cmdbytes n := by
      rw [bind_assoc]
      rfl
    rw [hstep]
    refine yields_bind (hq s) fun response t hr => ?_
    refine yields_ite (fun _ => ih t) fun hl => yields_ite (fun hc => ?_) fun _ => ?_
    · have hu : Usable response := ⟨fun h => hl (by rw [h]; rfl), hc⟩
      intro _ result u hrun
      rw [run_responseCode response hu t] at hrun
      split at hrun
      · cases hrun
      · cases hrun
        rintro _ ⟨⟩
        exact ⟨hu, hr hu⟩
    · exact yields_bind (R := fun _ _ => True) (fun _ _ _ _ => trivial) fun _ u _ => ih u

theorem yields_sendCmd {cmdbytes : Bytes}
    (hq : ∀ s, (sendBytes (cmdbytes ++ [calcCheckByte cmdbytes]) >>= fun _ =>
      getResponse).Yields d P s fun response t => Usable response → Q response t) (s : σ) :
    (sendCmd cmdbytes).Yields d P s fun result t =>
      result.2 = cmdbytes ++ [calcCheckByte cmdbytes] ∧
        ∀ response, result.1 = some response → Usable response ∧ Q response t := by
  refine yields_bind (yields_sendCmdLoop hq retryCount s) fun response t h => ?_
  exact yields_pure ⟨rfl, h⟩

/-- A read command returns the payload of a response to one of its attempts. -/
theorem yields_sendReadCmdLoop {a : UInt8}
    (hq : ∀ rest s, (sendBytes (0x80 :: a :: rest) >>= fun _ => getResponse).Yields d P s
      fun response t => Usable response → Q response t) (n : ℕ) (rest : Bytes) (s : σ) :
    (sendReadCmdLoop n (0x80 :: a :: rest)).Yields d P s fun result t =>
      ∀ data, result = some data →
        ∃ response, Usable response ∧ ReadReply response ∧ payload response = data ∧
          Q response t := by
  induction n generalizing s rest with
  | zero => exact yields_pure fun data h => by cases h
  | succ n ih =>
    refine yields_bind (yields_sendCmd (hq _) s) ?_
    rintro ⟨result, cmdbytes⟩ t ⟨rfl, h⟩
    cases result with
    | none => exact ih _ t
    | some response =>
      obtain ⟨hu, hr⟩ := h response rfl
      simp only [List.length_eq_zero_iff, hu.1, if_false, item_zero hu.1, pure_bind]
      refine yields_ite (fun _ => ih _ t) fun ht => yields_ite (fun _ => ih _ t) fun hl => ?_
      have hread : ReadReply response := ⟨ht, by simpa using hl⟩
      rw [output_eq hread, pure_bind]
      refine yields_pure ?_
      rintro _ ⟨⟩
      exact ⟨response, hu, hread, rfl, hr⟩

end Commands

/-- Reading takes bytes off the head of the line and nothing else. -/
theorem read_unread (size : ℕ) (s : Server) (r : Bytes) (t : Server)
    (h : Server.port (.read size) s = (.ok r, t)) :
    r ++ t.unread = s.unread ∧ t.replied = s.replied := by
  simp only [Server.port, Prod.mk.injEq, Except.ok.injEq] at h
  obtain ⟨rfl, rfl⟩ := h
  rw [Server.unread, Server.unread, ← List.append_assoc, List.take_append_drop,
    List.append_assoc, List.take_append_drop]
  exact ⟨rfl, rfl⟩

theorem yields_getResponse {P : PortOp → Server → Prop} (s : Server) :
    getResponse.Yields Server.port P s fun response t =>
      response ++ t.unread = s.unread ∧ t.replied = s.replied := by
  refine yields_bind (yields_perform fun _ => read_unread 1 s) fun first t h1 => ?_
  refine yields_bind (yields_perform fun _ => read_unread _ t) fun more u h2 => yields_pure ?_
  rw [List.append_assoc, h2.1]
  exact ⟨h1.1, h2.2.trans h1.2⟩

/-- A response to a current read command, if accepted, carries the data of its address. -/
theorem yields_readAttempt (a : UInt8) (rest : Bytes) (s : Server) :
    (sendBytes (0x80 :: a :: rest) >>= fun _ => getResponse).Yields Server.port Current s
      fun response t => Usable response → ReadReply response →
        ∃ r ∈ t.replied, r.isRead ∧ r.addr = a ∧ r.payload = payload response := by
  let own : Reply :=
    ⟨decide ((0x80 : UInt8) &&& 0x80 ≠ 0), a, (s.answers 0).take 127, length_take_lt 127 _⟩
  have hread : decide ((0x80 : UInt8) &&& 0x80 ≠ 0) = true := by decide
  have hreply : s.reply (0x80 :: a :: rest) = some own := by
    have hne : (0x80 :: a :: rest : Bytes) ≠ preamble := fun h => by cases h
    simp [Server.reply, hne, own]
  have hw : Server.port (.write (0x80 :: a :: rest)) s = (.ok (), { s with
      answers := fun i => s.answers (i + 1)
      inFlight := s.inFlight ++ own.frame
      replied := s.replied ++ [own] }) := by
    simp only [Server.port, hreply]
  refine yields_bind (R := fun _ t => Current (.write (0x80 :: a :: rest)) s ∧
    t = (Server.port (.write (0x80 :: a :: rest)) s).2) (yields_perform ?_) ?_
  · intro hc r t ht
    exact ⟨hc, by rw [ht]⟩
  rintro _ _ ⟨hc, rfl⟩
  refine (yields_getResponse _).mono fun response t ht hu hr => ?_
  obtain ⟨hline, hrep⟩ := ht
  have hwhole := hr.whole hu
  have hprefix : response <+: (Server.port (.write (0x80 :: a :: rest)) s).2.unread :=
    ⟨t.unread, hline⟩
  have hunread : (Server.port (.write (0x80 :: a :: rest)) s).2.unread = s.unread ++ own.frame := by
    rw [hw]
    exact (List.append_assoc ..).symm
  have same : ∀ r : Reply, r.frame <+: (Server.port (.write (0x80 :: a :: rest)) s).2.unread →
      response = r.frame := fun r h =>
    (hwhole.eq_take hprefix).trans (r.whole_frame.eq_take h).symm
  rw [hrep, hw]
  rcases hc a rest rfl with hnil | ⟨r, hmem, hrr, hra, hrp⟩ | hno
  · refine ⟨own, List.mem_append_right _ (List.mem_singleton_self own), hread, rfl, ?_⟩
    rw [same own (by rw [hunread, hnil]; exact List.prefix_rfl), Reply.payload_frame hread]
  · refine ⟨r, List.mem_append_left _ hmem, hrr, hra, ?_⟩
    rw [same r (by rw [hunread]; exact hrp.trans (List.prefix_append ..)), Reply.payload_frame hrr]
  · refine absurd ⟨?_, ?_⟩ hno
    · rwa [← hwhole.eq_take hprefix]
    · rwa [← hwhole.eq_take hprefix]

/-! ### Replies in time -/

/-- Nothing is unread, and every later reply arrives before the first read that waits for it. -/
def Server.Prompt (s : Server) : Prop := s.unread = [] ∧ ∀ i, 130 ≤ s.arrivals i

/-- Nothing or one whole reply is on the line. -/
def Server.Waiting (s : Server) : Prop :=
  (s.unread = [] ∨ ∃ r : Reply, s.unread = r.frame) ∧ ∀ i, 130 ≤ s.arrivals i

theorem Reply.length_frame (r : Reply) : r.frame.length = r.payload.length + 3 := by
  simp [frame, checked]

theorem Server.Waiting.length {s : Server} (h : s.Waiting) : s.unread.length ≤ 130 := by
  rcases h.1 with hn | ⟨r, hr⟩
  · simp [hn]
  · have := r.short
    rw [hr, r.length_frame]
    omega

theorem port_read_prompt {s : Server} (size : ℕ) (hl : s.unread.length ≤ 130)
    (ha : ∀ i, 130 ≤ s.arrivals i) :
    (Server.port (.read size) s).1 = .ok (s.unread.take size) ∧
      (Server.port (.read size) s).2.unread = s.unread.drop size ∧
        ∀ i, 130 ≤ (Server.port (.read size) s).2.arrivals i := by
  have hf : s.inFlight.length ≤ s.arrivals 0 := by
    have h0 := ha 0
    rw [Server.unread, List.length_append] at hl
    omega
  refine ⟨?_, ?_, fun i => ha (i + 1)⟩
  · simp [Server.port, Server.unread, List.take_of_length_le hf]
  · simp [Server.port, Server.unread, List.take_of_length_le hf, List.drop_of_length_le hf]

/-- `get_response` takes a reply that has arrived off the line whole. -/
theorem keeps_getResponse {s : Server} (h : s.Waiting) :
    getResponse.Keeps Server.port Current s fun _ t => t.Prompt := by
  obtain ⟨h1, h2, h3⟩ := port_read_prompt 1 h.length h.2
  refine keeps_bind (R := fun r t => r = .ok (s.unread.take 1) ∧ t.unread = s.unread.drop 1 ∧
    ∀ i, 130 ≤ t.arrivals i) (keeps_perform trivial ⟨h1, h2, h3⟩) ?_ fun e t ht => by cases ht.1
  rintro first t ⟨hfirst, hu, ha⟩
  obtain rfl : first = s.unread.take 1 := by simpa using hfirst
  have hl : t.unread.length ≤ 130 := by
    have := h.length
    rw [hu, List.length_drop]
    omega
  refine keeps_bind (R := fun _ u => u.Prompt) (keeps_perform trivial ?_)
    (fun more u hp => keeps_pure hp) fun _ _ hp => hp
  refine ⟨(port_read_prompt _ hl ha).2.1.trans ?_, (port_read_prompt _ hl ha).2.2⟩
  rw [hu]
  rcases h.1 with hn | ⟨r, hr⟩
  · simp [hn]
  · have hframe : s.unread = r.header :: r.addr :: (r.payload ++ [calcCheckByte
        (r.header :: r.addr :: r.payload)]) := hr
    have hh := r.header_eq.1
    rw [hframe]
    apply List.drop_eq_nil_of_le
    simp only [List.take_succ_cons, List.take_zero, List.drop_succ_cons, List.drop_zero,
      List.length_cons, List.length_append, List.length_nil, hh]
    omega

theorem keeps_sendBytes {s : Server} (h : s.Prompt) (chunk : Bytes) :
    (sendBytes chunk).Keeps Server.port Current s fun r t => r = .ok () ∧ t.Waiting := by
  refine keeps_perform (fun _ _ _ => Or.inl h.1) ?_
  simp only [Server.port]
  cases s.reply chunk with
  | none => exact ⟨rfl, Or.inl h.1, h.2⟩
  | some r =>
    refine ⟨rfl, Or.inr ⟨r, ?_⟩, h.2⟩
    have hn := h.1
    rw [Server.unread, List.append_eq_nil_iff] at hn
    simp [Server.unread, hn]

theorem keeps_sendPreamble {s : Server} (h : s.Prompt) :
    sendPreamble.Keeps Server.port Current s fun _ t => t.Prompt := by
  refine keeps_perform (fun _ _ _ => Or.inl h.1) ?_
  exact h

theorem keeps_item {s : Server} (h : s.Prompt) (bs : Bytes) (i : ℕ) :
    (item bs i).Keeps Server.port Current s fun _ t => t.Prompt := by
  rw [item]
  split
  · exact keeps_pure h
  · exact keeps_raise h

theorem keeps_sendCmd {s : Server} (h : s.Prompt) (cmdbytes : Bytes) :
    (sendCmd cmdbytes).Keeps Server.port Current s fun _ t => t.Prompt := by
  have hloop : ∀ (bs : Bytes) (n : ℕ) (s : Server), s.Prompt →
      (sendCmdLoop bs n).Keeps Server.port Current s fun _ t => t.Prompt := by
    intro bs n
    induction n with
    | zero => exact fun s h => keeps_pure h
    | succ n ih =>
      intro s h
      refine keeps_bind (keeps_sendBytes h bs) (fun _ t ht => ?_) fun _ _ he => by cases he.1
      refine keeps_bind (keeps_getResponse ht.2) (fun response u hu => ?_) fun _ _ hu => hu
      refine keeps_ite (fun _ => ih u hu) fun _ => keeps_ite (fun _ => ?_) fun _ => ?_
      · refine keeps_bind (keeps_item hu response 0) (fun first v hv => ?_) fun _ _ hv => hv
        refine keeps_ite (fun _ => ?_) fun _ => keeps_pure hv
        exact keeps_bind (keeps_item hv response 2) (fun _ w hw => keeps_pure hw) fun _ _ hw => hw
      · exact keeps_bind (keeps_sendPreamble hu) (fun _ v hv => ih v hv) fun _ _ hv => hv
  exact keeps_bind (hloop _ _ s h) (fun _ t ht => keeps_pure ht) fun _ _ ht => ht

theorem keeps_sendReadCmdLoop {s : Server} (h : s.Prompt) (n : ℕ) (cmdbytes : Bytes) :
    (sendReadCmdLoop n cmdbytes).Keeps Server.port Current s fun _ t => t.Prompt := by
  induction n generalizing s cmdbytes with
  | zero => exact keeps_pure h
  | succ n ih =>
    refine keeps_bind (keeps_sendCmd h cmdbytes) ?_ fun _ _ ht => ht
    rintro ⟨response, buffer⟩ t ht
    cases response with
    | none => exact ih ht buffer
    | some response =>
      refine keeps_ite (fun _ => ih ht buffer) fun _ => ?_
      refine keeps_bind (keeps_item ht response 0) (fun first u hu => ?_) fun _ _ hu => hu
      refine keeps_ite (fun _ => ih hu buffer) fun _ => ?_
      refine keeps_ite (fun _ => ih hu buffer) fun _ => ?_
      refine keeps_bind (maintains_mapM (fun y v hv => keeps_item hv response (y + 2)) _ hu)
        (fun _ v hv => keeps_pure hv) fun _ _ hv => hv

/-- With prompt replies nothing is ever unread when a command is written. -/
theorem current_of_prompt (calls : List Command) {s : Server} (h : s.Prompt) :
    AlwaysAll Server.port Current (calls.map Command.call) s := by
  refine alwaysAll_of_keeps (I := Server.Prompt) ?_ h
  rintro p hp t ht
  obtain ⟨c, -, rfl⟩ := List.mem_map.mp hp
  refine keeps_bind (R := fun _ u => u.Prompt) ?_ (fun _ u hu => keeps_pure hu) fun _ _ hu => hu
  cases c with
  | sendPreamble => exact keeps_sendPreamble ht
  | sendReadCmd addrbyte => exact keeps_sendReadCmdLoop ht retryCount [0x80, addrbyte]
  | sendWriteCmd length addrbyte databytes =>
    exact keeps_bind (keeps_sendCmd ht _) (fun _ u hu => keeps_pure hu) fun _ _ hu => hu

/-! ### Whose data a read returns -/

/-- In a run all of whose read commands are current, data comes from the address asked for. -/
theorem readsOwn_of_current (calls : List Command) (s : Server)
    (h : AlwaysAll Server.port Current (calls.map Command.call) s) : ReadsOwn calls s := by
  rintro before a after rfl t data hdata
  rw [List.map_append, alwaysAll_append, List.map_cons, AlwaysAll] at h
  have halways : (sendReadCmd a).Always Server.port Current t := ((always_bind _ _).mp h.2.1).1
  have hyields := yields_sendReadCmdLoop (yields_readAttempt a) retryCount [] t halways
  obtain ⟨response, -, hr, rfl, hq⟩ := hyields (some data) _ (Prod.ext hdata rfl) data rfl
  exact hq hr

theorem readsOwn_inTime :
    ReadsOwn [.sendReadCmd 0x51, .sendWriteCmd 1 0x33 [0x02], .sendReadCmd 0x52]
      (Server.start (fun _ => 130) fun i => [UInt8.ofNat i]) :=
  readsOwn_of_current _ _ (current_of_prompt _ ⟨rfl, fun _ => Nat.le_refl 130⟩)

/-- Both replies to the first command miss its first timeout; the second one is then taken for
the answer to the next command. -/
theorem not_readsOwn_late :
    ¬ ReadsOwn [.sendReadCmd 0x51, .sendReadCmd 0x52]
      (Server.start (fun i => if i = 2 ∨ i = 4 then 5 else 0) fun i => [UInt8.ofNat i, 0x0F]) := by
  intro h
  obtain ⟨r, hr, hread, ha, hp⟩ := h [.sendReadCmd 0x51] 0x52 [] rfl [0x01, 0x0F] (by decide)
  revert r
  decide

end BuffaloNas.Micon
