import BuffaloNas.Bytes

/-! The frames of the micon's serial protocol and the streams made of them. -/
namespace BuffaloNas.Micon

def calcCheckByte (inputbytes : Bytes) : UInt8 :=
  let checkbyte := inputbytes.foldl (fun checkbyte byte => (checkbyte + byte.toNat) % 256) 0x00
  UInt8.ofNat (((checkbyte ^^^ 0xFF) + 0x01) % 256)

def calcChecksum (inputbytes : Bytes) : ℕ :=
  inputbytes.foldl (fun checksum byte => checksum + byte.toNat) 0x00 % 256

def preamble : Bytes := List.replicate 32 0xFF

theorem calcChecksum_eq (bs : Bytes) : calcChecksum bs = byteSum bs % 256 := by
  rw [calcChecksum, foldl_add_toNat, Nat.zero_add]

/-- Complementing a byte value subtracts it from 255. -/
theorem xor_255 {x : ℕ} (h : x < 256) : x ^^^ 0xFF = 255 - x := by
  have key : ∀ y : Fin 256, y.val ^^^ 0xFF = 255 - y.val := by decide +kernel
  exact key ⟨x, h⟩

theorem calcCheckByte_toNat (bs : Bytes) :
    (calcCheckByte bs).toNat = (256 - byteSum bs % 256) % 256 := by
  have h : byteSum bs % 256 < 256 := Nat.mod_lt _ (by decide)
  rw [calcCheckByte, foldl_add_mod 256 bs 0 (by decide), Nat.zero_add, xor_255 h,
    UInt8.toNat_ofNat']
  omega

/-- The check byte completes any message to byte sum 0 mod 256. -/
theorem byteSum_checked (bs : Bytes) : byteSum (bs ++ [calcCheckByte bs]) % 256 = 0 := by
  rw [byteSum_append, byteSum_cons, byteSum_nil, calcCheckByte_toNat]
  omega

/-- A message with its check byte. -/
def checked (bytes : Bytes) : Bytes := bytes ++ [calcCheckByte bytes]

theorem calcChecksum_checked (bytes : Bytes) : calcChecksum (checked bytes) = 0 := by
  rw [calcChecksum_eq, checked, byteSum_checked]

/-- The number of data bytes that a command's first byte announces. -/
def announced (h : UInt8) : ℕ := if h < 0x80 then h.toNat else 0

/-- A write frame `h < 0x80` carries `h` data bytes, a read frame `h = 0x80` none. -/
def WellFormed : Bytes → Prop
  | [] => False
  | h :: rest =>
    h ≤ 0x80 ∧ rest.length = 2 + announced h ∧ byteSum (h :: rest) % 256 = 0

instance : DecidablePred WellFormed
  | [] => inferInstanceAs (Decidable False)
  | _ :: _ => inferInstanceAs (Decidable (_ ∧ _ ∧ _))

/-- A concatenation of preambles and well-formed frames. -/
inductive CommandStream : Bytes → Prop
  | nil : CommandStream []
  | preamble {s} : CommandStream s → CommandStream (preamble ++ s)
  | frame {f s} : WellFormed f → CommandStream s → CommandStream (f ++ s)

theorem commandStream_flatten {chunks : List Bytes}
    (h : ∀ c ∈ chunks, c = preamble ∨ WellFormed c) : CommandStream chunks.flatten := by
  induction chunks with
  | nil => exact .nil
  | cons c cs ih =>
    have hs := ih fun d hd => h d (List.mem_cons_of_mem c hd)
    rcases h c (List.mem_cons_self ..) with rfl | hc
    · exact .preamble hs
    · exact .frame hc hs

/-- The first byte of a stream settles the length of its first piece. -/
def pieceLength (h : UInt8) : ℕ := if h = 0xFF then 32 else 3 + announced h

/-- Cut a stream at the lengths its pieces announce and test every piece. -/
def splits : ℕ → Bytes → Bool
  | _, [] => true
  | 0, _ :: _ => false
  | n + 1, h :: rest =>
    let piece := (h :: rest).take (pieceLength h)
    decide (piece = preamble ∨ WellFormed piece) && splits n ((h :: rest).drop (pieceLength h))

theorem splits_piece {n h} {piece rest s : Bytes} (hp : piece = h :: rest)
    (hl : piece.length = pieceLength h) (hw : piece = preamble ∨ WellFormed piece) :
    splits (n + 1) (piece ++ s) = splits n s := by
  subst hp
  have ht : (h :: (rest ++ s)).take (pieceLength h) = h :: rest := by
    rw [← hl, ← List.cons_append, List.take_left]
  have hd : (h :: (rest ++ s)).drop (pieceLength h) = s := by
    rw [← hl, ← List.cons_append, List.drop_left]
  simp only [List.cons_append, splits, ht, hd, decide_eq_true hw, Bool.true_and]

theorem wellFormed_piece {f : Bytes} (hf : WellFormed f) :
    ∃ h rest, f = h :: rest ∧ f.length = pieceLength h := by
  cases f with
  | nil => exact hf.elim
  | cons h rest =>
    obtain ⟨hh, hl, _⟩ := hf
    refine ⟨h, rest, rfl, ?_⟩
    have hne : h ≠ 0xFF := by rintro rfl; exact absurd hh (by decide)
    simp [pieceLength, hne, hl]
    omega

theorem splits_of_commandStream {s : Bytes} (hs : CommandStream s) (n : ℕ)
    (hn : s.length ≤ n) : splits n s = true := by
  induction hs generalizing n with
  | nil => cases n <;> rfl
  | @preamble s hs ih =>
    simp only [List.length_append] at hn
    obtain ⟨n, rfl⟩ := Nat.exists_eq_succ_of_ne_zero (n := n) (by simp [preamble] at hn; omega)
    have hp : preamble = (0xFF : UInt8) :: List.replicate 31 0xFF := rfl
    rw [splits_piece hp rfl (Or.inl rfl)]
    exact ih n (by simp [preamble] at hn; omega)
  | @frame f s hf hs ih =>
    obtain ⟨h, rest, hp, hl⟩ := wellFormed_piece hf
    have hpos : 0 < f.length := by rw [hp]; simp
    simp only [List.length_append] at hn
    obtain ⟨n, rfl⟩ := Nat.exists_eq_succ_of_ne_zero (n := n) (by omega)
    rw [splits_piece hp hl (Or.inr hf)]
    exact ih n (by omega)

end BuffaloNas.Micon
