import Rpi5Modules.Cyw.FwImages
import Mathlib.Data.List.GetD

/-!
# The packing of the NVRAM text, byte by byte

`cyw_parse_nvram` reads the text one character at a time and writes into a zeroed buffer that it allocates with the
exact worst case. Here the function is modelled with its indices: the buffer is a function, and every index written is
recorded.

- the run with indices computes what the run on lists of `cywParseNvram` does, and writes below `buflen` only
  (`NvramBuf.Agrees`, `cywParseNvramBuf_agrees`);
- the loop is at a line of the text at any time (`AtLine`); from there it packs what is left line by line
  (`AtLine.packed`);
- every index is inside the allocation, and for a text without NUL bytes the output is the packed lines, the second
  NUL, the padding and the token (`cywParseNvram_packs`).
-/

namespace Cyw

/-! ## The function with its indices -/

/-- The locals of `cyw_parse_nvram`, and the indices of `buf` written so far. -/
structure NvramBuf where
  buf : Nat → UInt8
  buflen : Nat
  inComment : Bool
  atBol : Bool
  written : List Nat

/-- The size of the allocation, `roundup(rawlen + 2, 4) + 4`. -/
def nvramAlloc (rawlen : Nat) : Nat := (rawlen + 2 + 3) / 4 * 4 + 4

namespace NvramBuf

/-- `buf[buflen++] = c`. -/
def put (s : NvramBuf) (c : UInt8) : NvramBuf :=
  { s with
    buf := Function.update s.buf s.buflen c
    buflen := s.buflen + 1
    written := s.buflen :: s.written }

/-- `buflen > 0 && buf[buflen - 1] != '\0'`. -/
def unterminated (s : NvramBuf) : Bool := 0 < s.buflen && s.buf (s.buflen - 1) != 0

/-- One round of the `while (i < rawlen)` loop. -/
def step (s : NvramBuf) (c : UInt8) : NvramBuf :=
  if c = '\r'.toUInt8 then s
  else if c = '\n'.toUInt8 then
    { (if !s.inComment && !s.atBol && s.unterminated then s.put 0 else s) with
      inComment := false
      atBol := true }
  else if s.atBol && c = '#'.toUInt8 then { s with inComment := true, atBol := false }
  else if s.inComment then { s with atBol := false }
  else { s.put c with atBol := false }

/-- `while (buflen & 3) buf[buflen++] = '\0'`. -/
def pad (s : NvramBuf) : NvramBuf := if s.buflen % 4 = 0 then s else (s.put 0).pad
termination_by (4 - s.buflen % 4) % 4
decreasing_by
  show (4 - (s.buflen + 1) % 4) % 4 < (4 - s.buflen % 4) % 4
  omega

/-- `if (buflen > 0 && buf[buflen - 1] != '\0') buf[buflen++] = '\0';` -/
def terminate (s : NvramBuf) : NvramBuf := if s.unterminated then s.put 0 else s

/-- `le32enc(buf + buflen, token); buflen += 4;` -/
def le32enc (s : NvramBuf) (token : UInt32) : NvramBuf :=
  (((s.put (le32Bytes token 0)).put (le32Bytes token 1)).put (le32Bytes token 2)).put (le32Bytes token 3)

/-- The first `buflen` bytes of the buffer. -/
def output (s : NvramBuf) : List UInt8 := (List.range s.buflen).map s.buf

end NvramBuf

/-- `nwords` and `token` after `buflen` bytes. -/
def nvramToken (buflen : Nat) : UInt32 :=
  let nwords := UInt32.ofNat (buflen / 4)
  ((~~~nwords &&& 0xffff) <<< 16) ||| (nwords &&& 0xffff)

/-- `cyw_parse_nvram(raw, rawlen, outlen)` with the buffer it fills; `*outlen` is the `buflen` of the result. -/
def cywParseNvramBuf (raw : List UInt8) : NvramBuf :=
  let s := (raw.foldl NvramBuf.step ⟨fun _ => 0, 0, false, true, []⟩).terminate
  -- the second NUL is the zero that `malloc` left there
  let s := NvramBuf.pad { s with buflen := s.buflen + 1 }
  s.le32enc (nvramToken s.buflen)

/-! ## The lines of a text -/

def notCr (c : UInt8) : Bool := c != '\r'.toUInt8

/-- The lines of a text, without their CR characters. -/
def nvramLines (raw : List UInt8) : List (List UInt8) := (raw.splitOn '\n'.toUInt8).map fun l => l.filter notCr

def isComment (l : List UInt8) : Bool := l.head? == some '#'.toUInt8

/-- The line is non-empty and does not start with `#`. -/
def keepLine (l : List UInt8) : Bool := !l.isEmpty && !isComment l

/-- The lines that are kept, in order, each followed by one NUL. -/
def packedLines (raw : List UInt8) : List UInt8 := ((nvramLines raw).filter keepLine).flatMap (· ++ [0])

/-! ## Lists for indices -/

/-- `NvramBuf.terminate` on lists. -/
def terminate (buf : List UInt8) : List UInt8 := if unterminated buf then buf ++ [0] else buf

/-- The padding after `n` bytes. -/
def padding (n : Nat) : List UInt8 := List.replicate ((4 - n % 4) % 4) 0

namespace NvramBuf

variable {s : NvramBuf} {c : UInt8}

/-- The buffer holds the list, nothing was written beyond it, and what lies beyond is zero. -/
structure Agrees (s : NvramBuf) (buf : List UInt8) : Prop where
  buflen : s.buflen = buf.length
  buf : ∀ k, s.buf k = buf.getD k 0
  written : ∀ i ∈ s.written, i < s.buflen

variable {buf : List UInt8}

theorem Agrees.put (h : s.Agrees buf) (c : UInt8) : (s.put c).Agrees (buf ++ [c]) where
  buflen := by rw [NvramBuf.put, h.buflen, List.length_append, List.length_singleton]
  buf k := by
    show Function.update s.buf s.buflen c k = (buf ++ [c]).getD k 0
    rw [h.buflen]
    rcases Nat.lt_trichotomy k buf.length with hk | rfl | hk
    · rw [Function.update_of_ne (Nat.ne_of_lt hk), h.buf, List.getD_append _ _ _ _ hk]
    · rw [Function.update_self, List.getD_append_right _ _ _ _ (Nat.le_refl _), Nat.sub_self]
      rfl
    · rw [Function.update_of_ne (Nat.ne_of_gt hk), h.buf, List.getD_append_right _ _ _ _ (Nat.le_of_lt hk),
        List.getD_eq_default _ _ (Nat.le_of_lt hk)]
      refine (List.getD_eq_default _ _ ?_).symm
      rw [List.length_singleton]
      omega
  written i hi := by
    rcases List.mem_cons.1 hi with rfl | hi
    · exact Nat.lt_succ_self _
    · exact Nat.lt_succ_of_lt (h.written i hi)

/-- The zero that is skipped is one that was put there. -/
theorem Agrees.skip (h : s.Agrees buf) : NvramBuf.Agrees { s with buflen := s.buflen + 1 } (buf ++ [0]) where
  buflen := by
    show s.buflen + 1 = _
    rw [h.buflen, List.length_append, List.length_singleton]
  buf k := by
    show s.buf k = _
    rw [h.buf]
    rcases Nat.lt_or_ge k buf.length with hk | hk
    · rw [List.getD_append _ _ _ _ hk]
    · rw [List.getD_append_right _ _ _ _ hk, List.getD_eq_default _ _ hk]
      cases k - buf.length <;> rfl
  written i hi := Nat.lt_succ_of_lt (h.written i hi)

theorem Agrees.unterminated (h : s.Agrees buf) : s.unterminated = Cyw.unterminated buf := by
  unfold NvramBuf.unterminated Cyw.unterminated
  rw [h.buf, h.buflen, List.getLastD_eq_getLast?, List.getLast?_eq_getElem?, List.getD_eq_getElem?_getD]
  rcases buf with _ | ⟨x, buf⟩
  · rfl
  · rw [decide_eq_true (by simp), Bool.true_and]

/-- A round on indices does what a round on lists does. -/
theorem Agrees.step {t : NvramScan} (h : s.Agrees t.buf) (hc : s.inComment = t.inComment) (hb : s.atBol = t.atBol)
    (c : UInt8) :
    (s.step c).Agrees (t.step c).buf ∧ (s.step c).inComment = (t.step c).inComment ∧
      (s.step c).atBol = (t.step c).atBol := by
  unfold NvramBuf.step NvramScan.step
  rw [hc, hb, h.unterminated]
  split_ifs
  · exact ⟨h, hc, hb⟩
  · exact ⟨⟨(h.put 0).buflen, (h.put 0).buf, (h.put 0).written⟩, rfl, rfl⟩
  · exact ⟨⟨h.buflen, h.buf, h.written⟩, rfl, rfl⟩
  · exact ⟨⟨h.buflen, h.buf, h.written⟩, rfl, rfl⟩
  · exact ⟨⟨h.buflen, h.buf, h.written⟩, rfl, rfl⟩
  · exact ⟨⟨(h.put c).buflen, (h.put c).buf, (h.put c).written⟩, hc, rfl⟩

/-- The loop on indices does what the loop on lists does. -/
theorem Agrees.run (raw : List UInt8) {s : NvramBuf} {t : NvramScan} (h : s.Agrees t.buf)
    (hc : s.inComment = t.inComment) (hb : s.atBol = t.atBol) :
    (raw.foldl NvramBuf.step s).Agrees (raw.foldl NvramScan.step t).buf := by
  induction raw generalizing s t with
  | nil => exact h
  | cons c raw ih =>
    obtain ⟨h', hc', hb'⟩ := h.step hc hb c
    exact ih h' hc' hb'

theorem Agrees.terminate (h : s.Agrees buf) : s.terminate.Agrees (Cyw.terminate buf) := by
  unfold NvramBuf.terminate Cyw.terminate
  rw [h.unterminated]
  split
  · exact h.put 0
  · exact h

theorem Agrees.pad {s : NvramBuf} {buf : List UInt8} (h : s.Agrees buf) :
    s.pad.Agrees (buf ++ padding buf.length) := by
  rw [NvramBuf.pad, padding]
  by_cases hz : s.buflen % 4 = 0
  · have hn : (4 - buf.length % 4) % 4 = 0 := by
      rw [← h.buflen, hz]
    rw [if_pos hz, hn, List.replicate_zero, List.append_nil]
    exact h
  · have hrest := (h.put 0).pad
    have hlen := h.buflen
    have hn : (4 - buf.length % 4) % 4 = (4 - (buf ++ [(0 : UInt8)]).length % 4) % 4 + 1 := by
      rw [List.length_append, List.length_singleton]
      omega
    rw [if_neg hz, hn, List.replicate_succ, List.append_cons]
    exact hrest
termination_by (4 - s.buflen % 4) % 4
decreasing_by
  show (4 - (s.buflen + 1) % 4) % 4 < (4 - s.buflen % 4) % 4
  omega

theorem Agrees.le32enc (h : s.Agrees buf) (token : UInt32) :
    (s.le32enc token).Agrees (buf ++ (List.range 4).map (le32Bytes token)) := by
  have h4 := (((h.put (le32Bytes token 0)).put (le32Bytes token 1)).put (le32Bytes token 2)).put (le32Bytes token 3)
  have hlist : buf ++ (List.range 4).map (le32Bytes token) =
      buf ++ [le32Bytes token 0] ++ [le32Bytes token 1] ++ [le32Bytes token 2] ++ [le32Bytes token 3] := by
    simp only [List.append_assoc, List.singleton_append]
    rfl
  rw [hlist]
  exact h4

theorem Agrees.output (h : s.Agrees buf) : s.output = buf := by
  show (List.range s.buflen).map s.buf = buf
  apply List.ext_getElem
  · rw [List.length_map, List.length_range, h.buflen]
  · intro i _ hi
    rw [List.getElem_map, List.getElem_range, h.buf]
    exact (List.getElem_eq_getD 0).symm

end NvramBuf

/-! ## The loop, line by line -/

section Lines

variable {l raw : List UInt8}

theorem newline_notCr : notCr '\n'.toUInt8 = true := rfl

theorem filter_notCr (h : '\r'.toUInt8 ∉ l) : l.filter notCr = l := by
  apply List.filter_eq_self.2
  intro c hc
  exact bne_iff_ne.2 fun he => h (he ▸ hc)

/-- The CR characters may be removed before the text is cut into lines. -/
theorem nvramLines_eq (raw : List UInt8) : nvramLines raw = (raw.filter notCr).splitOn '\n'.toUInt8 := by
  unfold nvramLines
  induction raw with
  | nil => rfl
  | cons c raw ih =>
    rw [List.splitOn_cons_eq_if_modifyHead]
    by_cases hn : c = '\n'.toUInt8
    · subst hn
      rw [if_pos (BEq.rfl), List.map_cons, ih, List.filter_cons_of_pos newline_notCr,
        List.splitOn_cons_eq_if_modifyHead, if_pos (BEq.rfl)]
      rfl
    · obtain ⟨x, xs, hx⟩ := List.exists_cons_of_ne_nil (List.splitOn_ne_nil '\n'.toUInt8 raw)
      have hn' : ¬(c == '\n'.toUInt8) = true := fun h => hn (beq_iff_eq.1 h)
      rw [if_neg hn', hx, List.modifyHead_cons, List.map_cons]
      rw [hx, List.map_cons] at ih
      cases hr : notCr c with
      | true =>
        rw [List.filter_cons_of_pos hr, List.filter_cons_of_pos hr, List.splitOn_cons_eq_if_modifyHead, if_neg hn',
          ← ih, List.modifyHead_cons]
      | false =>
        have hr' : ¬notCr c = true := by rw [hr]; decide
        rw [List.filter_cons_of_neg hr', List.filter_cons_of_neg hr', ← ih]

theorem packedLines_cr : packedLines (l ++ '\r'.toUInt8 :: raw) = packedLines (l ++ raw) := by
  unfold packedLines
  rw [nvramLines_eq, nvramLines_eq, List.filter_append, List.filter_append, List.filter_cons_of_neg (by decide)]

/-- What becomes of one line. -/
def packLine (l : List UInt8) : List UInt8 := if keepLine l then l ++ [0] else []

variable (hn : '\n'.toUInt8 ∉ l) (hr : '\r'.toUInt8 ∉ l)
include hn hr

theorem nvramLines_last : nvramLines l = [l] := by
  rw [nvramLines_eq, filter_notCr hr, List.splitOn_eq_splitOnP, List.splitOnP_eq_singleton]
  intro c hc
  exact beq_eq_false_iff_ne.2 fun he => hn (he ▸ hc)

theorem nvramLines_cons : nvramLines (l ++ '\n'.toUInt8 :: raw) = l :: nvramLines raw := by
  rw [nvramLines_eq, nvramLines_eq, List.filter_append, filter_notCr hr, List.filter_cons_of_pos newline_notCr,
    List.splitOn_eq_splitOnP, List.splitOn_eq_splitOnP]
  refine List.splitOnP_append_cons_of_forall_mem (p := fun x => x == '\n'.toUInt8) ?_ _ (beq_self_eq_true _) _
  intro c hc
  exact beq_eq_false_iff_ne.2 fun he => hn (he ▸ hc)

theorem packedLines_last : packedLines l = packLine l := by
  unfold packedLines packLine
  rw [nvramLines_last hn hr]
  cases hk : keepLine l <;> simp [hk]

theorem packedLines_cons : packedLines (l ++ '\n'.toUInt8 :: raw) = packLine l ++ packedLines raw := by
  unfold packedLines packLine
  rw [nvramLines_cons hn hr]
  cases hk : keepLine l <;> simp [hk]

end Lines

/-- The loop has packed `done` and read `l` of the current line. -/
structure AtLine (s : NvramScan) (done l : List UInt8) : Prop where
  buf : s.buf = done ++ if isComment l then [] else l
  inComment : s.inComment = isComment l
  atBol : s.atBol = l.isEmpty
  closed : unterminated done = false
  noNul : 0 ∉ l
  noNl : '\n'.toUInt8 ∉ l
  noCr : '\r'.toUInt8 ∉ l

theorem unterminated_append {done l : List UInt8} (hne : l ≠ []) (h0 : 0 ∉ l) : unterminated (done ++ l) = true := by
  have hlast : (done ++ l).getLastD 0 = l.getLast hne := by
    rw [List.getLastD_eq_getLast?, List.getLast?_append_of_ne_nil _ hne, List.getLast?_eq_some_getLast hne]
    rfl
  rw [unterminated, hlast]
  exact bne_iff_ne.2 fun he => h0 (he ▸ List.getLast_mem hne)

namespace AtLine

variable {s : NvramScan} {done l : List UInt8}

/-- The line may end here: it is packed, and something after it starts afresh. -/
theorem terminate_eq (h : AtLine s done l) :
    terminate s.buf = done ++ packLine l ∧ unterminated (done ++ packLine l) = false := by
  unfold terminate packLine keepLine
  rw [h.buf]
  cases hc : isComment l with
  | true => simp [h.closed]
  | false =>
    rcases l with _ | ⟨c, l⟩
    · simp [h.closed]
    · have hu : unterminated (done ++ c :: l) = true := unterminated_append (List.cons_ne_nil c l) h.noNul
      have hz : unterminated (done ++ (c :: l ++ [0])) = false := by
        rw [← List.append_assoc, unterminated, List.getLastD_concat]
        rfl
      simp only [Bool.false_eq_true, if_false, hu, if_true, List.isEmpty_cons, Bool.not_false, Bool.and_self, hz,
        List.append_assoc, and_self]

/-- At the end of a line the flags say nothing that the buffer does not. -/
theorem newline_guard (h : AtLine s done l) :
    (!s.inComment && !s.atBol && unterminated s.buf) = unterminated s.buf := by
  rw [h.inComment, h.atBol, h.buf]
  cases hc : isComment l with
  | true => simp [h.closed]
  | false =>
    rcases l with _ | ⟨c, l⟩
    · simp [h.closed]
    · simp

theorem newline (h : AtLine s done l) : AtLine (s.step '\n'.toUInt8) (done ++ packLine l) [] := by
  have hstep : s.step '\n'.toUInt8 = ⟨terminate s.buf, false, true⟩ := by
    unfold NvramScan.step
    rw [if_neg (by decide), if_pos rfl, h.newline_guard]
    rfl
  rw [hstep]
  obtain ⟨ht, hu⟩ := h.terminate_eq
  exact ⟨by rw [ht]; simp, rfl, rfl, hu, List.not_mem_nil, List.not_mem_nil, List.not_mem_nil⟩

/-- A character of a line. -/
theorem char (h : AtLine s done l) {c : UInt8} (h0 : c ≠ 0) (hn : c ≠ '\n'.toUInt8) (hr : c ≠ '\r'.toUInt8) :
    AtLine (s.step c) done (l ++ [c]) := by
  have hmem : ∀ x : UInt8, x ≠ c → x ∉ l → x ∉ l ++ [c] := by
    intro x hx hl hm
    rcases List.mem_append.1 hm with hm | hm
    · exact hl hm
    · exact hx (List.mem_singleton.1 hm)
  have hflags : (s.step c).inComment = isComment (l ++ [c]) ∧ (s.step c).atBol = false ∧
      (s.step c).buf = done ++ if isComment (l ++ [c]) then [] else l ++ [c] := by
    unfold NvramScan.step
    rw [if_neg hr, if_neg hn, h.atBol, h.inComment, h.buf]
    rcases l with _ | ⟨x, l⟩
    · by_cases hc : c = '#'.toUInt8
      · subst hc
        simp [isComment]
      · simp [isComment, hc]
    · have hx : isComment (x :: l ++ [c]) = isComment (x :: l) := rfl
      rw [hx]
      cases isComment (x :: l) <;> simp
  exact ⟨hflags.2.2, hflags.1, by rw [hflags.2.1]; simp, h.closed, hmem 0 h0.symm h.noNul, hmem _ hn.symm h.noNl,
    hmem _ hr.symm h.noCr⟩

/-- **What is left of the text is packed line by line.** -/
theorem packed {raw : List UInt8} (h : AtLine s done l) (h0 : 0 ∉ raw) :
    terminate (raw.foldl NvramScan.step s).buf = done ++ packedLines (l ++ raw) := by
  induction raw generalizing s done l with
  | nil => rw [List.append_nil, packedLines_last h.noNl h.noCr, ← h.terminate_eq.1, List.foldl_nil]
  | cons c raw ih =>
    have hc0 : c ≠ 0 := fun he => h0 (he ▸ List.mem_cons_self)
    have h0' : 0 ∉ raw := fun hm => h0 (List.mem_cons_of_mem _ hm)
    rw [List.foldl_cons]
    by_cases hr : c = '\r'.toUInt8
    · subst hr
      rw [packedLines_cr]
      exact ih h h0'
    · by_cases hn : c = '\n'.toUInt8
      · subst hn
        rw [packedLines_cons h.noNl h.noCr, ih h.newline h0', List.nil_append, List.append_assoc]
      · rw [ih (h.char hc0 hn hr) h0', List.append_assoc, List.singleton_append]

end AtLine

/-- The loop and the termination of the last line pack the text. -/
theorem terminate_nvramScan {raw : List UInt8} (h0 : 0 ∉ raw) :
    terminate (nvramScan raw).buf = packedLines raw := by
  have hstart : AtLine ⟨[], false, true⟩ [] [] :=
    ⟨rfl, rfl, rfl, rfl, List.not_mem_nil, List.not_mem_nil, List.not_mem_nil⟩
  exact hstart.packed h0

/-! ## The whole function -/

/-- The low half of the token is the number of words, and its high half the complement of it. -/
theorem toNat_nvramToken (n : Nat) :
    (nvramToken n).toNat % 2 ^ 16 = n / 4 % 2 ^ 16 ∧ (nvramToken n).toNat / 2 ^ 16 = 2 ^ 16 - 1 - n / 4 % 2 ^ 16 := by
  generalize hw : UInt32.ofNat (n / 4) = w
  have hmod : w.toNat % 2 ^ 16 = n / 4 % 2 ^ 16 := by
    rw [← hw, UInt32.toNat_ofNat']
    omega
  have hlow : (w &&& 0xffff).toNat = w.toNat % 2 ^ 16 := by
    rw [UInt32.toNat_and]
    exact Nat.and_two_pow_sub_one_eq_mod _ 16
  have hhigh : (~~~w &&& 0xffff).toNat = 2 ^ 16 - 1 - w.toNat % 2 ^ 16 := by
    have hlt := w.toNat_lt
    rw [UInt32.toNat_and]
    apply (Nat.and_two_pow_sub_one_eq_mod _ 16).trans
    rw [UInt32.toNat_not]
    show (4294967296 - 1 - w.toNat) % 2 ^ 16 = _
    omega
  have htoken : (nvramToken n).toNat = (2 ^ 16 - 1 - w.toNat % 2 ^ 16) * 2 ^ 16 + w.toNat % 2 ^ 16 := by
    unfold nvramToken
    rw [hw, UInt32.toNat_or, UInt32.toNat_shiftLeft, hlow, hhigh]
    have hshift : (2 ^ 16 - 1 - w.toNat % 2 ^ 16) <<< ((16 : UInt32).toNat % 32) % 2 ^ 32 =
        (2 ^ 16 - 1 - w.toNat % 2 ^ 16) <<< 16 := by
      show (2 ^ 16 - 1 - w.toNat % 2 ^ 16) <<< 16 % 2 ^ 32 = _
      rw [Nat.shiftLeft_eq]
      omega
    rw [hshift, ← Nat.shiftLeft_add_eq_or_of_lt (by omega), Nat.shiftLeft_eq]
  rw [htoken, ← hmod]
  omega

theorem cywParseNvram_eq (raw : List UInt8) :
    cywParseNvram raw =
      let buf := terminate (nvramScan raw).buf ++ [0]
      let buf := buf ++ padding buf.length
      buf ++ (List.range 4).map (le32Bytes (nvramToken buf.length)) := rfl

/-- The run with indices computes what the run on lists does, and writes below `*outlen` only. -/
theorem cywParseNvramBuf_agrees (raw : List UInt8) : (cywParseNvramBuf raw).Agrees (cywParseNvram raw) := by
  have hstart : NvramBuf.Agrees ⟨fun _ => 0, 0, false, true, []⟩ [] :=
    ⟨rfl, fun _ => rfl, fun _ h => by cases h⟩
  have hscan : (raw.foldl NvramBuf.step ⟨fun _ => 0, 0, false, true, []⟩).Agrees (nvramScan raw).buf :=
    hstart.run raw (t := ⟨[], false, true⟩) rfl rfl
  have hpad := hscan.terminate.skip.pad
  rw [cywParseNvram_eq, cywParseNvramBuf]
  dsimp only
  rw [hpad.buflen]
  exact hpad.le32enc _

/-- **NVRAM packing**: every index written is inside the allocation, and the output for a text without NUL bytes is
what its lines say, `*outlen` bytes long. -/
theorem cywParseNvram_packs (raw : List UInt8) :
    (∀ i ∈ (cywParseNvramBuf raw).written, i < nvramAlloc raw.length) ∧
      (0 ∉ raw →
        ∃ n < 4, ∃ nwords, ∃ token : UInt32,
          (packedLines raw ++ [0] ++ List.replicate n 0).length = 4 * nwords ∧
          token.toNat % 2 ^ 16 = nwords % 2 ^ 16 ∧ token.toNat / 2 ^ 16 = 2 ^ 16 - 1 - nwords % 2 ^ 16 ∧
          (cywParseNvramBuf raw).output =
            packedLines raw ++ [0] ++ List.replicate n 0 ++ (List.range 4).map (le32Bytes token) ∧
          (cywParseNvramBuf raw).buflen =
            (packedLines raw ++ [0] ++ List.replicate n 0 ++ (List.range 4).map (le32Bytes token)).length) := by
  have hagrees := cywParseNvramBuf_agrees raw
  constructor
  · intro i hi
    have hlt := hagrees.written i hi
    rw [hagrees.buflen] at hlt
    exact Nat.lt_of_lt_of_le hlt (length_cywParseNvram_le raw)
  · intro h0
    generalize hlen : (packedLines raw ++ [0]).length = len
    have hwords : (packedLines raw ++ [0] ++ padding len).length = 4 * ((len + (4 - len % 4) % 4) / 4) := by
      rw [List.length_append, hlen, padding, List.length_replicate]
      omega
    have hout : cywParseNvram raw = packedLines raw ++ [0] ++ padding len ++
        (List.range 4).map (le32Bytes (nvramToken (packedLines raw ++ [0] ++ padding len).length)) := by
      rw [cywParseNvram_eq, terminate_nvramScan h0]
      dsimp only
      rw [hlen]
    have htoken := toNat_nvramToken (packedLines raw ++ [0] ++ padding len).length
    rw [hwords, Nat.mul_div_cancel_left _ (by decide)] at htoken
    rw [hwords] at hout
    refine ⟨(4 - len % 4) % 4, Nat.mod_lt _ (by decide), _, _, hwords, htoken.1, htoken.2, ?_, ?_⟩
    · rw [hagrees.output, hout]
      rfl
    · rw [hagrees.buflen, hout]
      rfl

/-- A comment, a line ended by CR and LF, an empty line and a last line without newline. -/
theorem cywParseNvram_packs_lines :
    0 ∉ "#c\r\na=1\r\n\nb".toList.map Char.toUInt8 ∧
      packedLines ("#c\r\na=1\r\n\nb".toList.map Char.toUInt8) = [0x61, 0x3d, 0x31, 0, 0x62, 0] ∧
      ∃ n < 4, ∃ nwords, 7 + n = 4 * nwords ∧
        (cywParseNvramBuf ("#c\r\na=1\r\n\nb".toList.map Char.toUInt8)).buflen = 7 + n + 4 := by
  have h0 : 0 ∉ "#c\r\na=1\r\n\nb".toList.map Char.toUInt8 := by decide
  have hlines : packedLines ("#c\r\na=1\r\n\nb".toList.map Char.toUInt8) = [0x61, 0x3d, 0x31, 0, 0x62, 0] := by
    decide
  obtain ⟨n, hn, nwords, token, hlen, -, -, -, hout⟩ := (cywParseNvram_packs _).2 h0
  rw [hlines, List.length_append, List.length_replicate] at hlen
  rw [hlines, List.length_append, List.length_append, List.length_replicate] at hout
  exact ⟨h0, hlines, n, hn, nwords, hlen, hout⟩

end Cyw
