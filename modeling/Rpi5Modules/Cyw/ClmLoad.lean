import Rpi5Modules.Cyw.DataFraming

/-!
# The chunks of the CLM blob

`cyw_clm_load` sends the CLM blob to the firmware in pieces, each in a `clmload` IOVAR behind a header of 12 bytes. The
pieces are cut by a do-while loop that keeps the begin and end flags in one variable.

- the requests a run sends carry the pieces of the blob in order, whatever becomes of them, and the run stops with the
  first that fails (`clmLoop_spec`);
- so a run in which none fails sends the whole blob, with the begin flag on the first piece and the end flag on the last
  (`cywClmLoad_chunks`), in transfers of less than 512 bytes (`byteMode_clmload`).
-/

namespace Cyw

def cywClmMaxChunk : Nat := 256
def cywClmDloadHdrLen : Nat := 12
def cywClmDlTypeClm : UInt16 := 2
def cywClmDlBegin : UInt16 := 0x0002
def cywClmDlEnd : UInt16 := 0x0004
def cywClmHandlerVer : UInt16 := 1
def cywClmFlagVerShift : UInt16 := 12

def wlcSetVar : UInt32 := 263

/-- `cyw_fil_iovar_data_set(sc, name, buf, len)`, as the request for `cyw_fil_txrx`. -/
def cywFilIovarDataSet (name : List UInt8) (buf : Nat → UInt8) (len : UInt64) : FilReq where
  cmd := wlcSetVar
  bcdcFlags := bcdcDcmdSet
  name := some name
  buf := some buf
  buflen := len

/-- `"clmload"`. -/
def clmload : List UInt8 := "clmload".toList.map Char.toUInt8

/-! ## The loop -/

/-- The locals of the loop of `cyw_clm_load`, and the requests handed to `cyw_fil_iovar_data_set` so far. -/
structure ClmLoop where
  chunkBuf : Nat → UInt8
  dlFlag : UInt16
  cumulative : Nat
  sent : List FilReq

/-- `chunk_len`. -/
def clmChunkLen (datalen cumulative : Nat) : UInt32 :=
  if datalen - cumulative > cywClmMaxChunk then UInt32.ofNat cywClmMaxChunk else UInt32.ofNat (datalen - cumulative)

/-- `dl_flag` when the header is built. -/
def clmChunkFlag (datalen cumulative : Nat) (dlFlag : UInt16) : UInt16 :=
  if datalen - cumulative > cywClmMaxChunk then dlFlag else dlFlag ||| cywClmDlEnd

/-- The six `memcpy`s into `chunk_buf`. -/
def clmChunkBuf (chunkBuf : Nat → UInt8) (dlFlag : UInt16) (chunkLen : UInt32) (piece : List UInt8) : Nat → UInt8 :=
  let b := storeAt chunkBuf 0 (bytesLe16 (dlFlag ||| cywClmHandlerVer <<< cywClmFlagVerShift))
  let b := storeAt b 2 (bytesLe16 cywClmDlTypeClm)
  let b := storeAt b 4 (bytesLe32 chunkLen)
  let b := storeAt b 8 (bytesLe32 0)
  storeAt b cywClmDloadHdrLen piece

theorem toNat_clmChunkLen (datalen cumulative : Nat) :
    (clmChunkLen datalen cumulative).toNat = min cywClmMaxChunk (datalen - cumulative) := by
  have h256 : cywClmMaxChunk = 256 := rfl
  unfold clmChunkLen
  split <;> rw [UInt32.toNat_ofNat'] <;> omega

/-- The do-while loop of `cyw_clm_load`; `iovar k` is what `cyw_fil_iovar_data_set` returns for chunk `k`. -/
def clmLoop (data : List UInt8) (iovar : Nat → Errno) (s : ClmLoop) : Errno × ClmLoop :=
  let chunkLen := clmChunkLen data.length s.cumulative
  let dlFlag := clmChunkFlag data.length s.cumulative s.dlFlag
  let chunkBuf := clmChunkBuf s.chunkBuf dlFlag chunkLen ((data.drop s.cumulative).take chunkLen.toNat)
  let err := iovar s.sent.length
  let sent := s.sent ++
    [cywFilIovarDataSet clmload chunkBuf (UInt64.ofNat cywClmDloadHdrLen + chunkLen.toUInt64)]
  if err ≠ 0 then (err, { s with chunkBuf := chunkBuf, dlFlag := dlFlag, sent := sent })
  else if s.cumulative + chunkLen.toNat < data.length then
    clmLoop data iovar ⟨chunkBuf, dlFlag &&& ~~~cywClmDlBegin, s.cumulative + chunkLen.toNat, sent⟩
  else (0, ⟨chunkBuf, dlFlag &&& ~~~cywClmDlBegin, s.cumulative + chunkLen.toNat, sent⟩)
termination_by data.length - s.cumulative
decreasing_by
  have h := toNat_clmChunkLen data.length s.cumulative
  have h256 : cywClmMaxChunk = 256 := rfl
  show data.length - (s.cumulative + (clmChunkLen data.length s.cumulative).toNat) < _
  omega

/-- `cyw_clm_load(sc)` and the chunks it sends: `clmp` is what `firmware_get_flags` returns, and `status` what the read
of `clmload_status` returns and leaves in `clm_status`. -/
def cywClmLoad (clmp : Option (List UInt8)) (iovar : Nat → Errno) (status : Errno × UInt32) : Errno × List FilReq :=
  match clmp with
  | none => (0, [])
  | some data =>
    let (err, s) := clmLoop data iovar ⟨fun _ => 0, cywClmDlBegin, 0, []⟩
    if err ≠ 0 then (err, s.sent)
    else if status.1 ≠ 0 then (status.1, s.sent)
    else if status.2 ≠ 0 then (eio, s.sent)
    else (0, s.sent)

/-! ## What a request carries -/

/-- `struct brcmf_dload_data_le`. -/
structure DloadData where
  flag : UInt16
  dloadType : UInt16
  len : UInt32
  crc : UInt32
  data : List UInt8
deriving DecidableEq

/-- The download header and data in the buffer of a request. -/
def dloadOf (r : FilReq) : DloadData :=
  let buf := r.buf.getD fun _ => 0
  { flag := (BufProg.le16 0).result buf
    dloadType := (BufProg.le16 2).result buf
    len := (BufProg.le32 4).result buf
    crc := (BufProg.le32 8).result buf
    data := (List.range (r.buflen.toNat - cywClmDloadHdrLen)).map fun k => buf (cywClmDloadHdrLen + k) }

/-- The number of chunks of a blob; an empty blob has one. -/
def clmChunks (datalen : Nat) : Nat := (datalen - 1) / cywClmMaxChunk + 1

/-- Chunk `i` of the blob. -/
def clmChunk (data : List UInt8) (i : Nat) : DloadData where
  flag := (if i = 0 then cywClmDlBegin else 0) ||| (if i + 1 = clmChunks data.length then cywClmDlEnd else 0) |||
    cywClmHandlerVer <<< cywClmFlagVerShift
  dloadType := cywClmDlTypeClm
  len := clmChunkLen data.length (cywClmMaxChunk * i)
  crc := 0
  data := (data.drop (cywClmMaxChunk * i)).take cywClmMaxChunk

/-- The little-endian bytes of a word make the word. -/
theorem ofNat_bytesLe32 (x : UInt32) :
    UInt32.ofNat (x.toUInt8.toNat + 256 * (x >>> 8).toUInt8.toNat + 65536 * (x >>> 16).toUInt8.toNat +
      16777216 * (x >>> 24).toUInt8.toNat) = x := by
  have hx := x.toNat_lt
  have hbyte : ∀ k : UInt32, k.toNat < 32 → (x >>> k).toUInt8.toNat = x.toNat / 2 ^ k.toNat % 256 := by
    intro k hk
    rw [UInt32.toNat_toUInt8, UInt32.toNat_shiftRight, Nat.mod_eq_of_lt hk, Nat.shiftRight_eq_div_pow]
  have h₁ : (x >>> 8).toUInt8.toNat = x.toNat / 2 ^ 8 % 256 := hbyte 8 (by decide)
  have h₂ : (x >>> 16).toUInt8.toNat = x.toNat / 2 ^ 16 % 256 := hbyte 16 (by decide)
  have h₃ : (x >>> 24).toUInt8.toNat = x.toNat / 2 ^ 24 % 256 := hbyte 24 (by decide)
  apply UInt32.toNat_inj.1
  rw [UInt32.toNat_ofNat', UInt32.toNat_toUInt8, h₁, h₂, h₃]
  omega

/-- The buffer of a chunk, read back. -/
theorem dloadOf_clmload (chunkBuf : Nat → UInt8) (dlFlag : UInt16) {chunkLen : UInt32} {piece : List UInt8}
    (hp : piece.length = chunkLen.toNat) :
    dloadOf (cywFilIovarDataSet clmload (clmChunkBuf chunkBuf dlFlag chunkLen piece)
      (UInt64.ofNat cywClmDloadHdrLen + chunkLen.toUInt64)) =
      ⟨dlFlag ||| cywClmHandlerVer <<< cywClmFlagVerShift, cywClmDlTypeClm, chunkLen, 0, piece⟩ := by
  generalize hb : clmChunkBuf chunkBuf dlFlag chunkLen piece = b
  have hhdr : cywClmDloadHdrLen = 12 := rfl
  have hbuflen : (UInt64.ofNat cywClmDloadHdrLen + chunkLen.toUInt64).toNat = 12 + chunkLen.toNat := by
    have hlt := chunkLen.toNat_lt
    rw [UInt64.toNat_add, UInt64.toNat_ofNat', UInt32.toNat_toUInt64]
    omega
  -- the header lies below the piece
  have hlow : ∀ i < 12, b i = storeAt (storeAt (storeAt (storeAt chunkBuf 0
      (bytesLe16 (dlFlag ||| cywClmHandlerVer <<< cywClmFlagVerShift))) 2 (bytesLe16 cywClmDlTypeClm)) 4
      (bytesLe32 chunkLen)) 8 (bytesLe32 0) i := fun i hi => by
    rw [← hb]
    exact storeAt_below hi
  have hflag : (BufProg.le16 0).result b = dlFlag ||| cywClmHandlerVer <<< cywClmFlagVerShift := by
    show UInt16.ofNat ((b 0).toNat + 256 * (b 1).toNat) = _
    rw [hlow 0 (by decide), hlow 1 (by decide)]
    exact ofNat_bytesLe16 _
  have htype : (BufProg.le16 2).result b = cywClmDlTypeClm := by
    show UInt16.ofNat ((b 2).toNat + 256 * (b 3).toNat) = _
    rw [hlow 2 (by decide), hlow 3 (by decide)]
    rfl
  have hlen : (BufProg.le32 4).result b = chunkLen := by
    show UInt32.ofNat ((b 4).toNat + 256 * (b 5).toNat + 65536 * (b 6).toNat + 16777216 * (b 7).toNat) = _
    rw [hlow 4 (by decide), hlow 5 (by decide), hlow 6 (by decide), hlow 7 (by decide)]
    exact ofNat_bytesLe32 _
  have hcrc : (BufProg.le32 8).result b = 0 := by
    show UInt32.ofNat ((b 8).toNat + 256 * (b 9).toNat + 65536 * (b 10).toNat + 16777216 * (b 11).toNat) = _
    rw [hlow 8 (by decide), hlow 9 (by decide), hlow 10 (by decide), hlow 11 (by decide)]
    rfl
  have hdata : (List.range chunkLen.toNat).map (fun k => b (cywClmDloadHdrLen + k)) = piece := by
    apply List.ext_getElem
    · rw [List.length_map, List.length_range, hp]
    · intro i _ hi
      rw [List.getElem_map, List.getElem_range, ← hb]
      exact storeAt_inside hi
  have hcount : (UInt64.ofNat cywClmDloadHdrLen + chunkLen.toUInt64).toNat - cywClmDloadHdrLen = chunkLen.toNat := by
    rw [hbuflen, hhdr, Nat.add_sub_cancel_left]
  simp only [dloadOf, cywFilIovarDataSet, Option.getD_some, hflag, htype, hlen, hcrc, hcount, hdata]

/-- The transfer of the request is shorter than the 512 bytes from which on the bus driver uses block mode. -/
def ByteMode (r : FilReq) : Prop :=
  ∀ heap id seq, (f2TxLen (filTxrxFrame heap r id seq).framelen).toNat < 512

theorem byteMode_clmload (buf : Nat → UInt8) {chunkLen : UInt32} (h : chunkLen.toNat ≤ cywClmMaxChunk) :
    ByteMode (cywFilIovarDataSet clmload buf (UInt64.ofNat cywClmDloadHdrLen + chunkLen.toUInt64)) := by
  intro heap id seq
  have h256 : cywClmMaxChunk = 256 := rfl
  have hlen : (12 + 16 + ((8 : UInt64) + (12 + chunkLen.toUInt64))).toNat = 48 + chunkLen.toNat := by
    rw [UInt64.toNat_add, UInt64.toNat_add, UInt64.toNat_add, UInt64.toNat_add, UInt32.toNat_toUInt64]
    show (28 + (8 + (12 + chunkLen.toNat) % 2 ^ 64) % 2 ^ 64) % 2 ^ 64 = _
    omega
  show (f2TxLen (align4 (12 + 16 + ((8 : UInt64) + (12 + chunkLen.toUInt64))))).toNat < 512
  rw [toNat_f2TxLen, toNat_align4, hlen]
  omega

/-! ## The run -/

/-- The requests `reqs` carry the chunks from `i` to `n`; of their outcomes only that of chunk `n` can be an error, and
`n` is the last chunk of the blob unless it is one. -/
structure ClmSent (data : List UInt8) (iovar : Nat → Errno) (i n : Nat) (reqs : List FilReq) : Prop where
  le : i ≤ n
  lt : n < clmChunks data.length
  carries : reqs.map dloadOf = (List.range' i (n + 1 - i)).map (clmChunk data)
  earlier : ∀ k, i ≤ k → k < n → iovar k = 0
  last : iovar n = 0 → n + 1 = clmChunks data.length
  byteMode : ∀ r ∈ reqs, ByteMode r

section Round

variable {data : List UInt8} {i : Nat}

/-- A chunk before the last one is full. -/
theorem more_iff (hi : i < clmChunks data.length) :
    data.length - cywClmMaxChunk * i > cywClmMaxChunk ↔ i + 1 ≠ clmChunks data.length := by
  unfold clmChunks cywClmMaxChunk at *
  omega

/-- The flags of the header are those of the chunk. -/
theorem clmChunkFlag_eq (hi : i < clmChunks data.length) :
    clmChunkFlag data.length (cywClmMaxChunk * i) (if i = 0 then cywClmDlBegin else 0) |||
      cywClmHandlerVer <<< cywClmFlagVerShift = (clmChunk data i).flag := by
  unfold clmChunkFlag clmChunk
  by_cases hlast : i + 1 = clmChunks data.length
  · rw [if_neg fun h => (more_iff hi).1 h hlast, if_pos hlast]
  · rw [if_pos ((more_iff hi).2 hlast), if_neg hlast, UInt16.or_zero]

/-- After a chunk that is not the last, no flag is left. -/
theorem clmChunkFlag_next (hi : i + 1 < clmChunks data.length) :
    clmChunkFlag data.length (cywClmMaxChunk * i) (if i = 0 then cywClmDlBegin else 0) &&& ~~~cywClmDlBegin = 0 := by
  rw [clmChunkFlag, if_pos ((more_iff (Nat.lt_of_succ_lt hi)).2 (Nat.ne_of_lt hi))]
  split <;> rfl

theorem length_piece (data : List UInt8) (i : Nat) :
    ((data.drop (cywClmMaxChunk * i)).take (clmChunkLen data.length (cywClmMaxChunk * i)).toNat).length =
      (clmChunkLen data.length (cywClmMaxChunk * i)).toNat := by
  rw [List.length_take, List.length_drop, toNat_clmChunkLen]
  omega

/-- The bytes that are copied are those of the chunk. -/
theorem piece_eq (data : List UInt8) (i : Nat) :
    (data.drop (cywClmMaxChunk * i)).take (clmChunkLen data.length (cywClmMaxChunk * i)).toNat =
      (clmChunk data i).data := by
  show _ = (data.drop (cywClmMaxChunk * i)).take cywClmMaxChunk
  rw [toNat_clmChunkLen, ← List.length_drop, ← List.take_take, List.take_length]

/-- The request of round `i` carries chunk `i`. -/
theorem dloadOf_round (hi : i < clmChunks data.length) (chunkBuf : Nat → UInt8) :
    dloadOf (cywFilIovarDataSet clmload
      (clmChunkBuf chunkBuf (clmChunkFlag data.length (cywClmMaxChunk * i) (if i = 0 then cywClmDlBegin else 0))
        (clmChunkLen data.length (cywClmMaxChunk * i))
        ((data.drop (cywClmMaxChunk * i)).take (clmChunkLen data.length (cywClmMaxChunk * i)).toNat))
      (UInt64.ofNat cywClmDloadHdrLen + (clmChunkLen data.length (cywClmMaxChunk * i)).toUInt64)) =
      clmChunk data i := by
  rw [dloadOf_clmload _ _ (length_piece data i), clmChunkFlag_eq hi, piece_eq]
  rfl

end Round

/-- **The loop sends the chunks in order and stops at the first that fails.** -/
theorem clmLoop_spec (data : List UInt8) (iovar : Nat → Errno) {i : Nat} (hi : i < clmChunks data.length)
    {s : ClmLoop} (hcum : s.cumulative = cywClmMaxChunk * i) (hflag : s.dlFlag = if i = 0 then cywClmDlBegin else 0)
    (hsent : s.sent.length = i) :
    ∃ n reqs, ClmSent data iovar i n reqs ∧ (clmLoop data iovar s).2.sent = s.sent ++ reqs ∧
      (clmLoop data iovar s).1 = iovar n := by
  have h256 : cywClmMaxChunk = 256 := rfl
  have hmul : cywClmMaxChunk * (i + 1) = cywClmMaxChunk * i + cywClmMaxChunk := Nat.mul_succ _ _
  have hlen := toNat_clmChunkLen data.length (cywClmMaxChunk * i)
  have hcarries := dloadOf_round hi s.chunkBuf
  rw [clmLoop]
  simp only [hcum, hflag, hsent]
  generalize hreq : cywFilIovarDataSet clmload _ _ = req at hcarries ⊢
  have hmode : ByteMode req := hreq ▸ byteMode_clmload _ (by omega)
  have hone : [req].map dloadOf = (List.range' i (i + 1 - i)).map (clmChunk data) := by
    rw [Nat.add_sub_cancel_left, List.map_singleton, hcarries]
    rfl
  by_cases herr : iovar i = 0
  · rw [if_neg (not_not.2 herr)]
    by_cases hlast : i + 1 = clmChunks data.length
    · have hdone : ¬cywClmMaxChunk * i + (clmChunkLen data.length (cywClmMaxChunk * i)).toNat < data.length := by
        have hmore := more_iff hi
        omega
      rw [if_neg hdone]
      exact ⟨i, [req], ⟨Nat.le_refl _, hi, hone, fun k h h' => by omega, fun _ => hlast,
        List.forall_mem_singleton.2 hmode⟩, rfl, herr.symm⟩
    · have hmore := (more_iff hi).2 hlast
      have hnext : i + 1 < clmChunks data.length := by omega
      have hcum' : cywClmMaxChunk * i + (clmChunkLen data.length (cywClmMaxChunk * i)).toNat =
          cywClmMaxChunk * (i + 1) := by omega
      rw [if_pos (by omega)]
      obtain ⟨n, reqs, h, hs, he⟩ := clmLoop_spec data iovar hnext (s := ⟨_, _, _, s.sent ++ [req]⟩) hcum'
        (clmChunkFlag_next hnext) (by rw [List.length_append, hsent]; rfl)
      refine ⟨n, req :: reqs, ⟨by have := h.le; omega, h.lt, ?_, ?_, h.last, ?_⟩, ?_, he⟩
      · have hcount : n + 1 - i = (n + 1 - (i + 1)) + 1 := by
          have := h.le
          omega
        rw [hcount, List.range'_succ, List.map_cons, List.map_cons, hcarries, h.carries]
      · intro k hk hkn
        rcases Nat.eq_or_lt_of_le hk with rfl | hk
        · exact herr
        · exact h.earlier k hk hkn
      · exact List.forall_mem_cons.2 ⟨hmode, h.byteMode⟩
      · rw [hs, List.append_assoc, List.singleton_append]
  · rw [if_pos herr]
    exact ⟨i, [req], ⟨Nat.le_refl _, hi, hone, fun k h h' => by omega, fun h => absurd h herr,
      List.forall_mem_singleton.2 hmode⟩, rfl, rfl⟩
termination_by clmChunks data.length - i
decreasing_by omega

/-- The pieces of a list, put back together. -/
theorem flatMap_pieces {α : Type} (l : List α) (m n : Nat) :
    (List.range n).flatMap (fun i => (l.drop (m * i)).take m) = l.take (m * n) := by
  induction n with
  | zero => rfl
  | succ n ih =>
    rw [List.range_succ, List.flatMap_append, ih, List.flatMap_singleton, Nat.mul_succ, List.take_add]

theorem clmFlag_begin (first last : Prop) [Decidable first] [Decidable last] :
    ((if first then cywClmDlBegin else 0) ||| (if last then cywClmDlEnd else 0) |||
      cywClmHandlerVer <<< cywClmFlagVerShift) &&& cywClmDlBegin ≠ 0 ↔ first := by
  by_cases hf : first <;> by_cases hl : last <;> simp only [hf, hl, if_true, if_false] <;> decide

theorem clmFlag_end (first last : Prop) [Decidable first] [Decidable last] :
    ((if first then cywClmDlBegin else 0) ||| (if last then cywClmDlEnd else 0) |||
      cywClmHandlerVer <<< cywClmFlagVerShift) &&& cywClmDlEnd ≠ 0 ↔ last := by
  by_cases hf : first <;> by_cases hl : last <;> simp only [hf, hl, if_true, if_false] <;> decide

/-- What the firmware can rely on about a chunk. -/
theorem clmChunk_wf (data : List UInt8) (i : Nat) :
    (clmChunk data i).data.length ≤ cywClmMaxChunk ∧
      (clmChunk data i).len.toNat = (clmChunk data i).data.length ∧
      ((clmChunk data i).flag &&& cywClmDlBegin ≠ 0 ↔ i = 0) ∧
      ((clmChunk data i).flag &&& cywClmDlEnd ≠ 0 ↔ i + 1 = clmChunks data.length) := by
  have hpiece := length_piece data i
  rw [piece_eq] at hpiece
  have hlen := toNat_clmChunkLen data.length (cywClmMaxChunk * i)
  exact ⟨by omega, hpiece.symm, clmFlag_begin _ _, clmFlag_end _ _⟩

/-- The error of the loop is the error of `cyw_clm_load`. -/
theorem cywClmLoad_sent (data : List UInt8) (iovar : Nat → Errno) (status : Errno × UInt32) :
    ∃ n, ClmSent data iovar 0 n (cywClmLoad (some data) iovar status).2 ∧
      (iovar n ≠ 0 → (cywClmLoad (some data) iovar status).1 = iovar n) := by
  obtain ⟨n, reqs, h, hs, he⟩ := clmLoop_spec data iovar (Nat.succ_pos _)
    (s := ⟨fun _ => 0, cywClmDlBegin, 0, []⟩) rfl rfl rfl
  refine ⟨n, ?_⟩
  unfold cywClmLoad
  dsimp only
  rw [he, hs, List.nil_append]
  by_cases hn : iovar n = 0
  · refine ⟨?_, fun h => absurd hn h⟩
    rw [if_neg (not_not.2 hn)]
    split
    · exact h
    · split <;> exact h
  · rw [if_pos hn]
    exact ⟨h, fun _ => rfl⟩

/-- **CLM blob chunking**: with every chunk IOVAR successful the chunks make up the blob, begin and end flag on the
first and the last of them; the first chunk that fails is the last one sent, and its error is returned; and no transfer
is long enough for block mode. -/
theorem cywClmLoad_chunks (data : List UInt8) (iovar : Nat → Errno) (status : Errno × UInt32) :
    0 < (cywClmLoad (some data) iovar status).2.length ∧
      ((∀ k < (cywClmLoad (some data) iovar status).2.length, iovar k = 0) →
        ((cywClmLoad (some data) iovar status).2.map dloadOf).flatMap DloadData.data = data ∧
          ∀ i d, ((cywClmLoad (some data) iovar status).2.map dloadOf)[i]? = some d →
            d.data.length ≤ 256 ∧ d.len.toNat = d.data.length ∧ (d.flag &&& cywClmDlBegin ≠ 0 ↔ i = 0) ∧
              (d.flag &&& cywClmDlEnd ≠ 0 ↔ i + 1 = (cywClmLoad (some data) iovar status).2.length)) ∧
      (∀ k < (cywClmLoad (some data) iovar status).2.length, iovar k ≠ 0 →
        (cywClmLoad (some data) iovar status).2.length = k + 1 ∧
          (cywClmLoad (some data) iovar status).1 = iovar k) ∧
      ∀ r ∈ (cywClmLoad (some data) iovar status).2, ∀ heap id seq,
        (f2TxLen (filTxrxFrame heap r id seq).framelen).toNat < 512 := by
  obtain ⟨n, h, herr⟩ := cywClmLoad_sent data iovar status
  generalize cywClmLoad (some data) iovar status = res at h herr
  have hcarries : res.2.map dloadOf = (List.range (n + 1)).map (clmChunk data) := by
    rw [h.carries, List.range_eq_range', Nat.sub_zero]
  have hlen : res.2.length = n + 1 := by
    have := congrArg List.length hcarries
    rwa [List.length_map, List.length_map, List.length_range] at this
  rw [hlen]
  refine ⟨Nat.succ_pos n, fun hok => ⟨?_, fun i d hd => ?_⟩, fun k hk hne => ?_, h.byteMode⟩
  · have hall : data.length ≤ cywClmMaxChunk * (n + 1) := by
      have hn := h.last (hok n (Nat.lt_succ_self n))
      unfold clmChunks cywClmMaxChunk at *
      omega
    rw [hcarries, List.flatMap_map]
    exact (flatMap_pieces data cywClmMaxChunk (n + 1)).trans (List.take_of_length_le hall)
  · rw [h.last (hok n (Nat.lt_succ_self n))]
    rw [hcarries, List.getElem?_map, Option.map_eq_some_iff] at hd
    obtain ⟨j, hj, rfl⟩ := hd
    obtain ⟨-, rfl⟩ := List.getElem?_eq_some_iff.1 hj
    rw [List.getElem_range]
    exact clmChunk_wf data i
  · rcases Nat.lt_or_eq_of_le (Nat.le_of_lt_succ hk) with hlt | rfl
    · exact absurd (h.earlier k (Nat.zero_le k) hlt) hne
    · exact ⟨rfl, herr hne⟩

end Cyw
