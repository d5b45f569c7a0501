import Rpi5Modules.Cyw.RecvFraming
import Rpi5Modules.Cyw.Watch

/-!
# The two paths of `cyw_fil_txrx` agree

At boot `cyw_fil_txrx` polls F2 itself; at run time it sleeps while the SDPCM task receives and delivers. Both parse a
response on their own.

- the boot path returns the outcome of the first frame that has one among the first 300 polls (`cywFilTxrxBoot_spec`);
- what a frame comes to is in its bytes, whatever the rest of the receive buffer holds (`outcome_ofData`);
- so both paths return the same and leave the same in the caller's buffer when they see the same frames in time
  (`paths_agree`).
-/

namespace Cyw

open BufProg Transition

/-! ## The boot path -/

/-- The frames among the results of `cyw_sdpcm_recv_one`. -/
def received (polls : List Recv) : List RxFrame := polls.filterMap Except.toOption

theorem firstOutcome_cons (r : Req) (id : UInt16) (f : RxFrame) (fs : List RxFrame) :
    firstOutcome r id (f :: fs) = (f.outcome r id).getD (firstOutcome r id fs) := by
  unfold firstOutcome
  rw [List.findSome?_cons]
  cases f.outcome r id <;> rfl

/-- `n` rounds of the polling loop look at the frames of the first `n` polls. -/
theorem bootPoll_spec (r : Req) (id : UInt16) {polls : List Recv} (hp : ∀ e, .error e ∈ polls → e = eagain) (n : Nat)
    (s : TxState) : (bootPoll r id n s polls).1 = firstOutcome r id (received (polls.take n)) := by
  induction n generalizing polls s with
  | zero => rfl
  | succ n ih =>
    cases polls with
    | nil =>
      have h := ih hp s
      rw [List.take_nil] at h ⊢
      exact h
    | cons o polls =>
      have hrest : ∀ e, .error e ∈ polls → e = eagain := fun e he => hp e (List.mem_cons_of_mem o he)
      unfold bootPoll
      cases o with
      | error e =>
        obtain rfl : e = eagain := hp e List.mem_cons_self
        exact ih hrest s
      | ok f =>
        have hrec : received (List.take (n + 1) (.ok f :: polls)) = f :: received (polls.take n) := rfl
        rw [hrec, firstOutcome_cons]
        dsimp only [List.headD_cons, List.tail_cons]
        cases ho : (cywFilTxrxPoll r id f.flen).result f.buf with
        | none =>
          rw [show f.outcome r id = none from ho]
          exact ih hrest (s.recvCredit f)
        | some out =>
          rw [show f.outcome r id = some out from ho]
          rfl

/-- The boot path, with a credit at hand and its F2 write done. -/
theorem cywFilTxrxBoot_spec (s : TxState) (r : Req) (drain : List Recv) {polls : List Recv} (hc : s.credits > 0)
    (hp : ∀ e, .error e ∈ polls → e = eagain) :
    (cywFilTxrxBoot s r drain 0 polls).1 = firstOutcome r (s.ioctlId + 1) (received (polls.take 300)) := by
  have hne : s.credits ≠ 0 := fun h => absurd (h ▸ hc) (by decide)
  have hd : bootDrain 100 { s with ioctlId := s.ioctlId + 1 } drain = (none, { s with ioctlId := s.ioctlId + 1 }) := by
    unfold bootDrain
    exact if_pos hc
  unfold cywFilTxrxBoot
  dsimp only
  rw [hd]
  dsimp only
  rw [if_neg (show ¬TxState.credits { s with ioctlId := s.ioctlId + 1 } = 0 from hne), if_neg (not_not_intro rfl)]
  exact bootPoll_spec r (s.ioctlId + 1) hp 300 _

/-! ## The same frames -/

namespace RxFrame

/-- A frame received into an empty buffer. -/
def ofData (bs : List UInt8) : RxFrame := ⟨UInt16.ofNat bs.length, (bs.getD · 0)⟩

end RxFrame

section SameData

variable {f : RxFrame} {r : Req} {id : UInt16}

theorem flen_ofData (f : RxFrame) : (RxFrame.ofData f.data).flen = f.flen := by
  simp [RxFrame.ofData, RxFrame.data]

theorem buf_ofData {i : Nat} (hi : i < f.flen.toNat) : (RxFrame.ofData f.data).buf i = f.buf i := by
  simp [RxFrame.ofData, RxFrame.data, hi]

/-- **What a frame comes to is in its bytes**: the rest of the receive buffer has no part in it. -/
theorem outcome_ofData (h : f.Ctrl → f.Inside) : (RxFrame.ofData f.data).outcome r id = f.outcome r id := by
  by_cases hlen : f.flen.toNat < cywSdpcmHdrLen + cywBcdcHdrLen
  · rw [outcome_of_not_bears fun hb => absurd hb.long (Nat.not_le.2 (flen_ofData f ▸ hlen)),
      outcome_of_not_bears fun hb => absurd hb.long (Nat.not_le.2 hlen)]
  · by_cases hc : f.Ctrl
    · have hin : HdrInside f.flen (f.buf 7) := .inr (h hc)
      unfold RxFrame.outcome
      rw [flen_ofData]
      exact ((cywFilTxrxPoll_within r id hin).result_eq fun i hi => (buf_ofData hi).symm).symm
    · have h5 : (RxFrame.ofData f.data).buf 5 = f.buf 5 := by
        apply buf_ofData
        simp only [cywSdpcmHdrLen, cywBcdcHdrLen] at hlen
        omega
      have hc' : ¬(RxFrame.ofData f.data).Ctrl := by
        unfold RxFrame.Ctrl
        rw [sdpcmChanFlags, result_byte, h5]
        exact hc
      rw [outcome_of_not_bears fun hb => hc' hb.ctrl, outcome_of_not_bears fun hb => hc hb.ctrl]

theorem findSome?_data {fs : List RxFrame} (h : ∀ f ∈ fs, f.Ctrl → f.Inside) :
    (fs.map RxFrame.data).findSome? (fun bs => (RxFrame.ofData bs).outcome r id) =
      fs.findSome? (RxFrame.outcome r id) := by
  induction fs with
  | nil => rfl
  | cons f fs ih =>
    rw [List.map_cons, List.findSome?_cons, List.findSome?_cons, outcome_ofData (h f List.mem_cons_self),
      ih fun g hg => h g (List.mem_cons_of_mem f hg)]

/-- Two receivers that see beginnings of one sequence of frames, both with an answer or both without. -/
theorem firstOutcome_congr {fs gs : List RxFrame} {sent : List (List UInt8)} (hf : ∀ f ∈ fs, f.Ctrl → f.Inside)
    (hg : ∀ g ∈ gs, g.Ctrl → g.Inside) (hfs : fs.map RxFrame.data <+: sent) (hgs : gs.map RxFrame.data <+: sent)
    (h : (∃ f ∈ fs, f.Bears id) ↔ ∃ g ∈ gs, g.Bears id) : firstOutcome r id fs = firstOutcome r id gs := by
  rw [← findSome?_isSome (r := r), ← findSome?_isSome (r := r)] at h
  unfold firstOutcome
  cases ho : fs.findSome? (RxFrame.outcome r id) with
  | none =>
    cases ho' : gs.findSome? (RxFrame.outcome r id) with
    | none => rfl
    | some out =>
      rw [ho, ho'] at h
      exact nomatch h.2 rfl
  | some out =>
    cases ho' : gs.findSome? (RxFrame.outcome r id) with
    | none =>
      rw [ho, ho'] at h
      exact nomatch h.1 rfl
    | some out' =>
      have hs := hfs.findSome?_eq_some ((findSome?_data hf).trans ho)
      have hs' := hgs.findSome?_eq_some ((findSome?_data hg).trans ho')
      rw [Option.some.inj (hs.symm.trans hs')]

end SameData

/-! ## Every call -/

/-- A buffer after `memcpy`s to its start. -/
def contents (old : Nat → UInt8) (copies : List (List UInt8)) : Nat → UInt8 :=
  copies.foldl (fun buf bs k => bs.getD k (buf k)) old

/-- What was copied to the address. -/
def Trans.copiedTo (t : Trans) (p : Nat) : List (List UInt8) := (t.copied.filter fun w => w.1 = p).map Prod.snd

/-- A boot-time run of the same transaction, from `s`, that receives the same frames: it has a credit, `polls` holds
frames and `EAGAIN`s, control frames have their headers inside, both paths see beginnings of the sequence `sent`, and
the answer is among the first 300 polls if and only if the run-time path gets to it before its time is up. -/
structure Trans.SameFrames (t : Trans) (s : TxState) (polls : List Recv) (sent : List (List UInt8)) : Prop where
  id : s.ioctlId + 1 = t.call.id
  credit : s.credits > 0
  noError : ∀ e, .error e ∈ polls → e = eagain
  bootInside : ∀ f ∈ received polls, f.Ctrl → f.Inside
  heardInside : ∀ f ∈ t.heard, f.Ctrl → f.Inside
  bootSees : (received polls).map RxFrame.data <+: sent
  heardSees : t.heard.map RxFrame.data <+: sent
  inTime : (∃ f ∈ received (polls.take 300), f.Bears t.call.id) ↔ ∃ f ∈ t.heard, f.Bears t.call.id

section Agree

variable {t : Trans} {s : TxState} {polls : List Recv} {sent : List (List UInt8)}

theorem copiedTo_buf {payload : Option (List UInt8)} (h : t.copied = payload.toList.map (Prod.mk t.call.buf)) :
    t.copiedTo t.call.buf = payload.toList := by
  unfold Trans.copiedTo
  rw [h]
  cases payload <;> simp

/-- The boot path returns the outcome of what the run-time path has heard. -/
theorem Trans.SameFrames.boot (h : t.SameFrames s polls sent) (drain : List Recv) :
    (cywFilTxrxBoot s t.call.req drain 0 polls).1 = t.result := by
  have htake : received (polls.take 300) <+: received polls := (List.take_prefix 300 polls).filterMap _
  rw [cywFilTxrxBoot_spec s t.call.req drain h.credit h.noError, h.id]
  refine firstOutcome_congr (fun f hf => h.bootInside f (htake.subset hf)) h.heardInside ?_ h.heardSees h.inTime
  exact (htake.map RxFrame.data).trans h.bootSees

/-- **The two paths of `cyw_fil_txrx` agree.** In every run of any callers, for every call whose F2 write succeeded and
that `cyw_sdpcm_detach` did not cut short: what it returned, and what it left in its caller's buffer, is what the boot
path returns and leaves for the same request and id on the same frames; and once it has its answer it does return. -/
theorem paths_agree {ι : Type} [DecidableEq ι] (slot : IoctlSlot) (ioctlId : UInt16) (txSeq rxMax : UInt8)
    (as : List (Action ι)) (w : Watch ι) (hrun : run Watch.step (Watch.init ι slot ioctlId txSeq rxMax) as = some w)
    (t : Trans) (hwrote : t.wrote = true) (hdet : t.detached = false) :
    (∀ err, (t, err) ∈ w.log.done → ∀ (s : TxState) (drain polls : List Recv) (sent : List (List UInt8))
        (old : Nat → UInt8), t.SameFrames s polls sent →
      (cywFilTxrxBoot s t.call.req drain 0 polls).1.1 = err ∧
        contents old (cywFilTxrxBoot s t.call.req drain 0 polls).1.2.toList =
          contents old (t.copiedTo t.call.buf)) ∧
      (w.log.cur = some t → (∃ f ∈ t.heard, f.Bears t.call.id) → w.Returns t) := by
  have hi : w.Inv := Watch.inv_run (Watch.inv_init slot ioctlId txSeq rxMax) hrun
  constructor
  · intro err hdone s drain polls sent old hsame
    obtain ⟨c, -, hl⟩ := hi
    obtain ⟨herr, hcopied⟩ := hl.done t err hdone hwrote hdet
    rw [hsame.boot drain, copiedTo_buf hcopied]
    exact ⟨herr.symm, rfl⟩
  · intro hcur hb
    exact Watch.returns_of_heard hi hcur hwrote hdet hb

/-- What is written down about the GET of `getAnswered`. -/
def getTrans : Trans := ⟨getCall, [answer], [(0, [42])], true, false⟩

theorem answer_bears : answer.Bears 1 := ⟨rfl, by decide, rfl⟩

/-- The boot path with the same answer in its second poll. -/
theorem sameFrames_get : getTrans.SameFrames tenCredits [.error eagain, .ok answer] [answer.data] where
  id := rfl
  credit := by decide
  noError := by
    intro e he
    rcases List.mem_cons.1 he with he | he
    · exact Except.error.inj he
    · cases List.mem_singleton.1 he
  bootInside := fun f hf _ => List.mem_singleton.1 hf ▸ (by decide : 12 + 16 ≤ 29)
  heardInside := fun f hf _ => List.mem_singleton.1 hf ▸ (by decide : 12 + 16 ≤ 29)
  bootSees := List.prefix_rfl
  heardSees := List.prefix_rfl
  inTime := ⟨fun _ => ⟨answer, List.mem_cons_self, answer_bears⟩, fun _ => ⟨answer, List.mem_cons_self, answer_bears⟩⟩

/-- A GET, answered with one byte. -/
theorem paths_agree_get :
    (cywFilTxrxBoot tenCredits getReq [] 0 [.error eagain, .ok answer]).1.1 = 0 ∧
      contents (fun _ => 0) (cywFilTxrxBoot tenCredits getReq [] 0 [.error eagain, .ok answer]).1.2.toList =
        contents (fun _ => 0) [[42]] :=
  (paths_agree getSlot 0 0 4 getAnswered _ rfl getTrans rfl rfl).1 0 List.mem_cons_self tenCredits []
    [.error eagain, .ok answer] [answer.data] (fun _ => 0) sameFrames_get

end Agree

end Cyw
