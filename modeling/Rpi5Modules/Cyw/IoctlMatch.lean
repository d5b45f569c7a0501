import Rpi5Modules.Cyw.OneCaller

/-!
# Transactions and their responses

What `cyw_fil_txrx` returns, and what is written into its caller's buffer, come from a response that carries the id of
that very call (`ioctl_matched`), for any number of callers and any frames, as long as a response arrives before its
id is issued again and its headers lie in the frame. One error is not the firmware's: a call whose F2 write fails
returns what the write returned, and that may be `EIO` too (`ioctl_write_eio`).

The invariant says, for the caller in the transaction, what the `ioctl_*` fields are: not waiting before it is armed;
then waiting for its id with its buffer, or not waiting and with a result that a consumed response explains.
-/

namespace Cyw

open BufProg

/-! ## Responses -/

namespace RxFrame

/-- Where the frame's BCDC header is, by its `data_offset` byte. -/
def bch (f : RxFrame) : Nat := (sdpcmDataOffset.result f.buf).toNat

def flags (f : RxFrame) : UInt32 := (bcdcFlags f.bch).result f.buf

def id (f : RxFrame) : UInt16 := bcdcId f.flags

/-- The error flag is set. -/
def IsError (f : RxFrame) : Prop := f.flags &&& bcdcDcmdError ≠ 0

instance (f : RxFrame) : Decidable f.IsError := inferInstanceAs (Decidable (_ ≠ _))

/-- The bytes behind the BCDC header up to the end of the frame, at most `buflen`. -/
def payload (f : RxFrame) (buflen : Nat) : List UInt8 :=
  let pp := f.bch + cywBcdcHdrLen
  (bytes pp (min buflen (f.flen.toNat - pp))).result f.buf

/-- The BCDC header lies in the frame. -/
def Inside (f : RxFrame) : Prop := f.bch + cywBcdcHdrLen ≤ f.flen.toNat

end RxFrame

/-- What a matching response without error leaves in the waiting buffer. -/
def copyOf (sc : IoctlSlot) (f : RxFrame) : Option (Nat × List UInt8) :=
  match sc.ioctlGet, sc.ioctlRespBuf with
  | true, some respBuf => some (respBuf, f.payload sc.ioctlRespBuflen)
  | _, _ => none

theorem copyOf_get {sc : IoctlSlot} {f : RxFrame} {p : Nat} (hg : sc.ioctlGet = true) (hb : sc.ioctlRespBuf = some p) :
    copyOf sc f = some (p, f.payload sc.ioctlRespBuflen) := by
  unfold copyOf
  rw [hg, hb]

theorem copyOf_none {sc : IoctlSlot} {f : RxFrame}
    (h : ∀ p, sc.ioctlGet = true → sc.ioctlRespBuf = some p → False) : copyOf sc f = none := by
  unfold copyOf
  split
  · next p hg hb => exact (h p hg hb).elim
  · rfl

/-- The outcome of a delivery: discarded, or consumed with or without the error flag. -/
inductive Delivered (sc : IoctlSlot) (f : RxFrame) : Delivery → Prop where
  | discarded : Delivered sc f (.none sc)
  | error (hw : sc.ioctlWaiting = true) (hid : f.id = sc.ioctlWaitId) (he : f.IsError) (status : UInt32) :
      Delivered sc f
        ⟨{ sc with ioctlFwStatus := status, ioctlResult := eio, ioctlWaiting := false }, none, true⟩
  | ok (hw : sc.ioctlWaiting = true) (hid : f.id = sc.ioctlWaitId) (he : ¬f.IsError) :
      Delivered sc f ⟨{ sc with ioctlResult := 0, ioctlWaiting := false }, copyOf sc f, true⟩

theorem delivered (sc : IoctlSlot) {f : RxFrame} (hin : f.Inside) :
    Delivered sc f ((cywSdpcmDeliverCtrl sc f.flen).result f.buf) := by
  unfold cywSdpcmDeliverCtrl
  by_cases hlen : f.flen.toNat < cywSdpcmHdrLen + cywBcdcHdrLen
  · rw [if_pos hlen]
    exact .discarded
  · rw [if_neg hlen]
    simp only [result_bind]
    show Delivered sc f (result (if !sc.ioctlWaiting || f.id != sc.ioctlWaitId then _ else _) f.buf)
    by_cases hm : (!sc.ioctlWaiting || f.id != sc.ioctlWaitId) = true
    · rw [if_pos hm]
      exact .discarded
    · rw [if_neg hm]
      have hw : sc.ioctlWaiting = true := by simp_all
      have hid : f.id = sc.ioctlWaitId := by simp_all
      show Delivered sc f (result (if f.flags &&& bcdcDcmdError ≠ 0 then _ else _) f.buf)
      by_cases he : f.flags &&& bcdcDcmdError ≠ 0
      · rw [if_pos he]
        exact .error hw hid he _
      · rw [if_neg he]
        have hpp : f.bch + cywBcdcHdrLen ≤ f.flen.toNat := hin
        have hlt : f.flen.toNat < 2 ^ 16 := f.flen.toNat_lt
        have hok := Delivered.ok hw hid he
        split
        · next p hg hb =>
          rw [copyOf_get hg hb] at hok
          simp only [result_bind, result_pure]
          rw [show (sdpcmDataOffset.result f.buf).toNat = f.bch from rfl, ptrDiff_of_le hpp (by omega)]
          exact hok
        · next hno =>
          rw [copyOf_none hno] at hok
          exact hok

/-! ## The history -/

/-- The event is the start of call `k`. -/
def IoctlEvent.starts (k : Nat) : IoctlEvent → Bool
  | start c => c.ord == k
  | _ => false

/-- The event neither starts nor ends a call, nor is it a response that is consumed. -/
def IoctlEvent.Quiet : IoctlEvent → Prop
  | start _ => False
  | ret _ _ => False
  | deliver _ _ d => d.signal = false
  | _ => True

/-- What happened since call `k` started, the last event first. -/
def since (k : Nat) (h : List IoctlEvent) : List IoctlEvent := h.takeWhile fun e => !e.starts k

/-- The calls that have started and not returned. -/
def openCalls : List IoctlEvent → List Call
  | [] => []
  | .start c :: h => c :: openCalls h
  | .ret c _ :: h => (openCalls h).filter fun d => d.ord ≠ c.ord
  | _ :: h => openCalls h

/-- The response carries the id of the call and, if it answers a call at all, answers this one. -/
structure Answers (c : Call) (f : RxFrame) (origin : Option Nat) : Prop where
  id : f.id = c.id
  origin : ∀ k, origin = some k → k = c.ord

/-- Since the call started, a response of this kind to it was consumed. -/
def Consumed (c : Call) (kind : RxFrame → Prop) (h : List IoctlEvent) : Prop :=
  ∃ f o d, .deliver f o d ∈ since c.ord h ∧ d.signal = true ∧ Answers c f o ∧ kind f

/-- Since the call started, no response was consumed. -/
def Unanswered (c : Call) (h : List IoctlEvent) : Prop := ∀ f o d, .deliver f o d ∈ since c.ord h → d.signal = false

/-- The call may return `err`: success needs a response without the error flag, `EIO` one with it or a failed write. -/
def MayReturn (c : Call) (err : Errno) (h : List IoctlEvent) : Prop :=
  (err = 0 → Consumed c (fun f => ¬f.IsError) h) ∧
    (err = eio → Consumed c RxFrame.IsError h ∨ .writeErr c eio ∈ since c.ord h)

/-- The bytes are the payload of the response, and the address is the buffer of the call, a GET. -/
structure CopiesInto (c : Call) (f : RxFrame) (p : Nat) (bs : List UInt8) : Prop where
  hasBuf : c.req.hasBuf = true
  isGet : c.req.isSet = false
  addr : p = c.buf
  payload : bs = f.payload c.req.buflen

/-- The event is explained by those before it. -/
def Justified : IoctlEvent → List IoctlEvent → Prop
  | .start _, h => openCalls h = []
  | .kassert ok, _ => ok = true
  | .deliver f o d, h =>
      (d.signal = true → ∃ c, openCalls h = [c] ∧ Answers c f o ∧ Unanswered c h) ∧
        ∀ p bs, d.copy = some (p, bs) → d.signal = true ∧ ¬f.IsError ∧ ∃ c, openCalls h = [c] ∧ CopiesInto c f p bs
  | .writeErr c err, h => c ∈ openCalls h ∧ err ≠ 0
  | .ret c err, h => c ∈ openCalls h ∧ MayReturn c err h

/-- Every event is. -/
def HistoryOk : List IoctlEvent → Prop
  | [] => True
  | e :: h => Justified e h ∧ HistoryOk h

section History

variable {e : IoctlEvent} {h : List IoctlEvent} {c : Call} {k : Nat} {err : Errno} {kind : RxFrame → Prop}

theorem IoctlEvent.Quiet.starts (hq : e.Quiet) : e.starts k = false := by
  cases e with
  | start c => exact hq.elim
  | _ => rfl

theorem since_cons (hs : e.starts k = false) : since k (e :: h) = e :: since k h := by
  unfold since
  rw [List.takeWhile_cons, hs]
  rfl

theorem since_start (c : Call) (h : List IoctlEvent) : since c.ord (.start c :: h) = [] := by
  unfold since
  rw [List.takeWhile_cons]
  simp [IoctlEvent.starts]

theorem openCalls_cons (hq : e.Quiet) : openCalls (e :: h) = openCalls h := by
  cases e with
  | start c => exact hq.elim
  | ret c err => exact hq.elim
  | _ => rfl

theorem mem_since_cons (hs : e.starts k = false) {e' : IoctlEvent} (hm : e' ∈ since k h) : e' ∈ since k (e :: h) := by
  rw [since_cons hs]
  exact List.mem_cons_of_mem e hm

theorem Consumed.cons (hc : Consumed c kind h) (hs : e.starts c.ord = false) : Consumed c kind (e :: h) := by
  obtain ⟨f, o, d, hm, hd⟩ := hc
  exact ⟨f, o, d, mem_since_cons hs hm, hd⟩

theorem Unanswered.cons (hu : Unanswered c h) (hq : e.Quiet) : Unanswered c (e :: h) := by
  intro f o d hm
  rw [since_cons hq.starts, List.mem_cons] at hm
  rcases hm with rfl | hm
  · exact hq
  · exact hu f o d hm

theorem MayReturn.cons (hr : MayReturn c err h) (hs : e.starts c.ord = false) : MayReturn c err (e :: h) :=
  ⟨fun h0 => (hr.1 h0).cons hs, fun h5 => (hr.2 h5).imp (·.cons hs) (mem_since_cons hs)⟩

/-- Any other error needs no explanation. -/
theorem mayReturn_other (h0 : err ≠ 0) (h5 : err ≠ eio) : MayReturn c err h :=
  ⟨fun h => (h0 h).elim, fun h => (h5 h).elim⟩

end History

/-! ## The invariant -/

/-- The call is the one in a transaction: `n` calls have started, `x` is `ioctl_id`. -/
structure Held (h : List IoctlEvent) (n : Nat) (x : UInt16) (c : Call) : Prop where
  inside : openCalls h = [c]
  ord : n = c.ord
  id : x = c.id

/-- The slot waits for the call. -/
structure SlotOf (slot : IoctlSlot) (c : Call) : Prop where
  id : slot.ioctlWaitId = c.id
  respBuf : slot.ioctlRespBuf = if c.req.hasBuf then some c.buf else none
  buflen : slot.ioctlRespBuflen = c.req.buflen
  get : slot.ioctlGet = (!c.req.isSet && c.req.hasBuf)

/-- The call is not armed yet. -/
structure Before (slot : IoctlSlot) (h : List IoctlEvent) (n : Nat) (x : UInt16) (c : Call) : Prop where
  held : Held h n x c
  waiting : slot.ioctlWaiting = false
  unanswered : Unanswered c h

/-- The call is armed: it waits for its response, or the result in the slot may be returned. -/
structure Armed (slot : IoctlSlot) (h : List IoctlEvent) (n : Nat) (x : UInt16) (c : Call) : Prop where
  held : Held h n x c
  waits : slot.ioctlWaiting = true → SlotOf slot c ∧ Unanswered c h
  result : MayReturn c slot.ioctlResult h

/-- The call is at `out` with `err`. -/
structure Done (slot : IoctlSlot) (h : List IoctlEvent) (n : Nat) (x : UInt16) (c : Call) (err : Errno) : Prop where
  held : Held h n x c
  waiting : slot.ioctlWaiting = false
  result : MayReturn c err h

/-- The slot and the history, by where the caller is. -/
def IoctlAt (slot : IoctlSlot) (h : List IoctlEvent) (n : Nat) (x : UInt16) : CallerPc → Prop
  | .idle => openCalls h = [] ∧ slot.ioctlWaiting = false
  | .credit c _ => Before slot h n x c
  | .compare c _ _ => Before slot h n x c
  | .lock c => Before slot h n x c
  | .arming c _ => Before slot h n x c
  | .f2Lock c _ => Armed slot h n x c
  | .f2Write c _ => Armed slot h n x c
  | .failed c err => Armed slot h n x c ∧ err ≠ 0 ∧ .writeErr c err ∈ since c.ord h
  | .wait c => Armed slot h n x c
  | .asleep c => Armed slot h n x c
  | .woken c cerr => Armed slot h n x c ∧ (cerr = 0 → slot.ioctlWaiting = false)
  | .out c err => Done slot h n x c err

/-- The ids are issued in order. -/
def IdsOk (h : List IoctlEvent) (n : Nat) (x : UInt16) : Prop :=
  ∀ c, .start c ∈ h → c.ord ≤ n ∧ x = c.id + UInt16.ofNat (n - c.ord)

/-- **The invariant of the transactions.** -/
structure IoctlInv (c : Core) : Prop where
  ok : HistoryOk c.sc.hist
  ids : IdsOk c.sc.hist c.sc.started c.sc.ioctlId
  place : IoctlAt c.sc.slot c.sc.hist c.sc.started c.sc.ioctlId c.pc

section Invariant

variable {slot slot' : IoctlSlot} {h : List IoctlEvent} {n : Nat} {x : UInt16} {c : Call} {e : IoctlEvent}
  {p : CallerPc} {err : Errno}

theorem Held.cons (hh : Held h n x c) (hq : e.Quiet) : Held (e :: h) n x c :=
  ⟨(openCalls_cons hq).trans hh.inside, hh.ord, hh.id⟩

theorem Before.cons (hb : Before slot h n x c) (hq : e.Quiet) : Before slot (e :: h) n x c :=
  ⟨hb.held.cons hq, hb.waiting, hb.unanswered.cons hq⟩

theorem Armed.cons (ha : Armed slot h n x c) (hq : e.Quiet) : Armed slot (e :: h) n x c :=
  ⟨ha.held.cons hq, fun hw => ⟨(ha.waits hw).1, (ha.waits hw).2.cons hq⟩, ha.result.cons hq.starts⟩

theorem Done.cons (hd : Done slot h n x c err) (hq : e.Quiet) : Done slot (e :: h) n x c err :=
  ⟨hd.held.cons hq, hd.waiting, hd.result.cons hq.starts⟩

/-- A quiet event changes nothing. -/
theorem IoctlAt.cons (hi : IoctlAt slot h n x p) (hq : e.Quiet) : IoctlAt slot (e :: h) n x p := by
  cases p with
  | idle => exact ⟨(openCalls_cons hq).trans hi.1, hi.2⟩
  | credit c i => exact Before.cons hi hq
  | compare c i rxMax => exact Before.cons hi hq
  | lock c => exact Before.cons hi hq
  | arming c seq => exact Before.cons hi hq
  | f2Lock c seq => exact Armed.cons hi hq
  | f2Write c seq => exact Armed.cons hi hq
  | failed c err => exact ⟨hi.1.cons hq, hi.2.1, mem_since_cons hq.starts hi.2.2⟩
  | wait c => exact Armed.cons hi hq
  | asleep c => exact Armed.cons hi hq
  | woken c cerr => exact ⟨hi.1.cons hq, hi.2⟩
  | out c err => exact Done.cons hi hq

/-- The call an armed caller is in. -/
def CallerPc.armed : CallerPc → Option Call
  | f2Lock c _ => some c
  | f2Write c _ => some c
  | failed c _ => some c
  | wait c => some c
  | asleep c => some c
  | woken c _ => some c
  | _ => none

/-- Whoever waits is armed. -/
theorem IoctlAt.armed (hi : IoctlAt slot h n x p) (hw : slot.ioctlWaiting = true) :
    ∃ c, p.armed = some c ∧ Armed slot h n x c := by
  have hno : slot.ioctlWaiting ≠ false := by simp [hw]
  cases p with
  | idle => exact (hno hi.2).elim
  | credit c i => exact (hno (Before.waiting hi)).elim
  | compare c i rxMax => exact (hno (Before.waiting hi)).elim
  | lock c => exact (hno (Before.waiting hi)).elim
  | arming c seq => exact (hno (Before.waiting hi)).elim
  | f2Lock c seq => exact ⟨c, rfl, hi⟩
  | f2Write c seq => exact ⟨c, rfl, hi⟩
  | failed c err => exact ⟨c, rfl, hi.1⟩
  | wait c => exact ⟨c, rfl, hi⟩
  | asleep c => exact ⟨c, rfl, hi⟩
  | woken c cerr => exact ⟨c, rfl, hi.1⟩
  | out c err => exact (hno (Done.waiting hi)).elim

/-- An armed caller that no longer waits, woken if it slept; the history may have grown since `h`. -/
theorem IoctlAt.answered {h' : List IoctlEvent} (hi : IoctlAt slot h n x p) (hp : p.armed = some c)
    (ha : Armed slot' h' n x c) (hw : slot'.ioctlWaiting = false)
    (hmono : ∀ e' ∈ since c.ord h, e' ∈ since c.ord h') : IoctlAt slot' h' n x p.wake := by
  cases p with
  | f2Lock c seq => cases hp; exact ha
  | f2Write c seq => cases hp; exact ha
  | failed c err => cases hp; exact ⟨ha, hi.2.1, hmono _ hi.2.2⟩
  | wait c => cases hp; exact ha
  | asleep c => cases hp; exact ⟨ha, fun _ => hw⟩
  | woken c cerr => cases hp; exact ⟨ha, fun _ => hw⟩
  | _ => cases hp

end Invariant

/-! ## The steps keep it -/

/-- The frame being delivered has its headers inside, and if it answers a call, it carries the call's id and fewer than
65536 calls have started since. -/
def FreshAt (sc : Softc) (q : RxTqPc) (origin : Option Nat) : Prop :=
  ∀ f, q = .deliver f → f.Inside ∧
    ∀ k, origin = some k → ∃ c, .start c ∈ sc.hist ∧ c.ord = k ∧ f.id = c.id ∧ sc.started - k < 65536

/-- What is assumed of a step. -/
def Core.Fresh (c : Core) : Action Unit → Prop
  | .deliver origin => FreshAt c.sc c.rxTq origin
  | _ => True

section Steps

variable {sc : Softc} {p : CallerPc} {q q' : RxTqPc} {c : Call} {f : RxFrame} {origin : Option Nat}

/-- A fresh response with the id waited for answers the call that waits. -/
theorem answers_of_fresh (hids : IdsOk sc.hist sc.started sc.ioctlId) (hh : Held sc.hist sc.started sc.ioctlId c)
    (hid : f.id = c.id) (hf : FreshAt sc (.deliver f) origin) : Answers c f origin := by
  refine ⟨hid, fun k hk => ?_⟩
  obtain ⟨c', hm, rfl, hid', hlt⟩ := (hf f rfl).2 k hk
  obtain ⟨hle, hx⟩ := hids c' hm
  have hzero : UInt16.ofNat (sc.started - c'.ord) = 0 := by
    rw [hh.id, ← hid, hid'] at hx
    exact UInt16.left_eq_add.1 hx
  have hmod : (sc.started - c'.ord) % 2 ^ 16 = 0 := UInt16.toNat_ofNat'.symm.trans (congrArg UInt16.toNat hzero)
  have hn := hh.ord
  omega

/-- What a consumed response is copied to. -/
theorem copiesInto (hs : SlotOf sc.slot c) {r : Nat} {bs : List UInt8} (hc : copyOf sc.slot f = some (r, bs)) :
    CopiesInto c f r bs := by
  unfold copyOf at hc
  split at hc
  · next r' hg hb =>
    rw [Option.some.injEq, Prod.mk.injEq] at hc
    obtain ⟨rfl, rfl⟩ := hc
    have hget : (!c.req.isSet && c.req.hasBuf) = true := hs.get.symm.trans hg
    rw [Bool.and_eq_true, Bool.not_eq_true'] at hget
    have hbuf := hs.respBuf.symm.trans hb
    rw [if_pos hget.2, Option.some.injEq] at hbuf
    exact ⟨hget.2, hget.1, hbuf.symm, by rw [hs.buflen]⟩
  · cases hc

/-- **A response is delivered**: it is discarded, or it is consumed by the call that waits. -/
theorem ioctlInv_deliver (hi : IoctlInv ⟨sc, p, .deliver f⟩) (hf : FreshAt sc (.deliver f) origin) :
    IoctlInv ⟨sc.deliver f origin, if (sc.delivery f).signal then p.wake else p, .drain⟩ := by
  have hd : Delivered sc.slot f (sc.delivery f) := delivered sc.slot (hf f rfl).1
  have hids : IdsOk (sc.deliver f origin).hist sc.started sc.ioctlId := by
    intro c hm
    rcases List.mem_cons.1 hm with hm | hm
    · cases hm
    · exact hi.ids c hm
  have hplace : IoctlAt sc.slot sc.hist sc.started sc.ioctlId p := hi.place
  unfold Softc.deliver at hids ⊢
  generalize sc.delivery f = d at hd hids
  cases hd with
  | discarded =>
    have hq : (IoctlEvent.deliver f origin (.none sc.slot)).Quiet := rfl
    exact ⟨⟨⟨nofun, nofun⟩, hi.ok⟩, hids, hplace.cons hq⟩
  | error hw hid he status =>
    obtain ⟨c, hp, ha⟩ := hplace.armed hw
    obtain ⟨hs, hu⟩ := ha.waits hw
    have hans : Answers c f origin := answers_of_fresh hi.ids ha.held (hid.trans hs.id) hf
    refine ⟨⟨⟨fun _ => ⟨c, ha.held.inside, hans, hu⟩, nofun⟩, hi.ok⟩, hids, ?_⟩
    refine hplace.answered hp ⟨⟨ha.held.inside, ha.held.ord, ha.held.id⟩, nofun, nofun, fun _ => .inl ?_⟩ rfl ?_
    · exact ⟨f, origin, _, by rw [since_cons rfl]; exact List.mem_cons_self, rfl, hans, he⟩
    · exact fun _ hm => mem_since_cons rfl hm
  | ok hw hid he =>
    obtain ⟨c, hp, ha⟩ := hplace.armed hw
    obtain ⟨hs, hu⟩ := ha.waits hw
    have hans : Answers c f origin := answers_of_fresh hi.ids ha.held (hid.trans hs.id) hf
    have hopen : openCalls sc.hist = [c] := ha.held.inside
    refine ⟨⟨⟨fun _ => ⟨c, hopen, hans, hu⟩, fun r bs hc => ⟨rfl, he, c, hopen, ?_⟩⟩, hi.ok⟩, hids, ?_⟩
    · exact copiesInto hs hc
    · refine hplace.answered hp ⟨⟨ha.held.inside, ha.held.ord, ha.held.id⟩, nofun, fun _ => ?_, nofun⟩ rfl ?_
      · exact ⟨f, origin, _, by rw [since_cons rfl]; exact List.mem_cons_self, rfl, hans, he⟩
      · exact fun _ hm => mem_since_cons rfl hm

/-- The wake-up of the detach ends the wait without a response. -/
theorem ioctlInv_detach (hi : IoctlInv ⟨sc, p, q⟩) :
    IoctlInv ⟨sc.detach, if sc.slot.ioctlWaiting then p.wake else p, q⟩ := by
  unfold Softc.detach
  by_cases hw : sc.slot.ioctlWaiting = true
  · rw [if_pos hw, if_pos hw]
    have hplace : IoctlAt sc.slot sc.hist sc.started sc.ioctlId p := hi.place
    obtain ⟨c, hp, ha⟩ := hplace.armed hw
    refine ⟨hi.ok, hi.ids, hplace.answered hp ⟨ha.held, nofun, mayReturn_other ?_ ?_⟩ rfl fun _ hm => hm⟩
    · exact (by decide : enxio ≠ 0)
    · exact (by decide : enxio ≠ eio)
  · rw [if_neg hw, if_neg hw]
    exact hi

theorem ioctlInv_call (hi : IoctlInv ⟨sc, .idle, q⟩) (r : Req) (buf : Nat) :
    IoctlInv ⟨sc.start (sc.newCall r buf), .credit (sc.newCall r buf) 0, q⟩ := by
  obtain ⟨hok, hids, hopen, hw⟩ := hi
  refine ⟨⟨hopen, hok⟩, ?_, ?_⟩
  · intro c hm
    rcases List.mem_cons.1 hm with hm | hm
    · cases hm
      exact ⟨Nat.le_refl _, by simp [Softc.start, Softc.newCall]⟩
    · obtain ⟨hle, hx⟩ := hids c hm
      have hle : c.ord ≤ sc.started := hle
      have hx : sc.ioctlId = c.id + UInt16.ofNat (sc.started - c.ord) := hx
      refine ⟨Nat.le_succ_of_le hle, ?_⟩
      show sc.ioctlId + 1 = c.id + UInt16.ofNat (sc.started + 1 - c.ord)
      rw [Nat.sub_add_comm hle, UInt16.ofNat_add, ← UInt16.add_assoc, ← hx]
      rfl
  · refine ⟨⟨?_, rfl, rfl⟩, hw, ?_⟩
    · show sc.newCall r buf :: openCalls sc.hist = [sc.newCall r buf]
      rw [hopen]
    · intro f o d hm
      have hnil : since (sc.newCall r buf).ord (.start (sc.newCall r buf) :: sc.hist) = [] := since_start _ _
      rw [show (sc.start (sc.newCall r buf)).hist = .start (sc.newCall r buf) :: sc.hist from rfl, hnil] at hm
      cases hm

/-- The call returns. -/
theorem ioctlInv_out {err : Errno} (hi : IoctlInv ⟨sc, .out c err, q⟩) : IoctlInv ⟨sc.ret c err, .idle, q⟩ := by
  obtain ⟨hok, hids, hd⟩ := hi
  have hin : openCalls sc.hist = [c] := hd.held.inside
  refine ⟨⟨⟨?_, hd.result⟩, hok⟩, ?_, ?_, hd.waiting⟩
  · rw [hin]
    exact List.mem_singleton_self c
  · intro c' hm
    rcases List.mem_cons.1 hm with hm | hm
    · cases hm
    · exact hids c' hm
  · show (openCalls sc.hist).filter (fun d => d.ord ≠ c.ord) = []
    rw [hin]
    simp

/-- The history grows by a quiet event. -/
theorem IdsOk.cons {h : List IoctlEvent} {n : Nat} {x : UInt16} {e : IoctlEvent} (hids : IdsOk h n x)
    (hq : e.Quiet) : IdsOk (e :: h) n x := by
  intro c hm
  rcases List.mem_cons.1 hm with rfl | hm
  · exact hq.elim
  · exact hids c hm

theorem ioctlInv_step {t t' : Core} {a : Action Unit} (hi : IoctlInv t) (hf : t.Fresh a) (hs : t.Step a t') :
    IoctlInv t' := by
  cases hs with
  | call r buf => exact ioctlInv_call hi r buf
  | credit => exact ⟨hi.ok, hi.ids, hi.place⟩
  | again m => exact ⟨hi.ok, hi.ids, hi.place⟩
  | refused hc =>
    have hb := hi.place
    exact ⟨hi.ok, hi.ids, Before.held hb, Before.waiting hb, mayReturn_other (by decide) (by decide)⟩
  | granted hc => exact ⟨hi.ok, hi.ids, hi.place⟩
  | lock =>
    have hb := hi.place
    refine ⟨⟨?_, hi.ok⟩, hi.ids.cons trivial, Before.cons hb trivial⟩
    exact congrArg not (Before.waiting hb)
  | arm =>
    have hb := hi.place
    refine ⟨hi.ok, hi.ids, Before.held hb, fun _ => ⟨⟨rfl, rfl, rfl, rfl⟩, Before.unanswered hb⟩, mayReturn_other ?_ ?_⟩
    · exact (by decide : etimedout ≠ 0)
    · exact (by decide : etimedout ≠ eio)
  | f2Lock hq => exact ⟨hi.ok, hi.ids, hi.place⟩
  | wrote => exact ⟨hi.ok, hi.ids, hi.place⟩
  | writeErr he =>
    have ha := hi.place
    refine ⟨⟨⟨?_, he⟩, hi.ok⟩, hi.ids.cons trivial, Armed.cons ha trivial, he, ?_⟩
    · rw [(Armed.held ha).inside]
      exact List.mem_singleton_self _
    · show _ ∈ since _ (_ :: _)
      rw [since_cons rfl]
      exact List.mem_cons_self
  | failed =>
    obtain ⟨ha, he, hm⟩ := hi.place
    exact ⟨hi.ok, hi.ids, ha.held, rfl, fun h0 => (he h0).elim, fun h5 => .inr (h5 ▸ hm)⟩
  | sleep hw => exact ⟨hi.ok, hi.ids, hi.place⟩
  | answered hw =>
    have ha := hi.place
    exact ⟨hi.ok, hi.ids, Armed.held ha, hw, Armed.result ha⟩
  | timeout => exact ⟨hi.ok, hi.ids, hi.place, fun h => by cases h⟩
  | timedOut he =>
    have ha := hi.place.1
    exact ⟨hi.ok, hi.ids, ha.held, rfl, ha.result⟩
  | signalled =>
    obtain ⟨ha, hw⟩ := hi.place
    exact ⟨hi.ok, hi.ids, ha.held, hw rfl, ha.result⟩
  | out => exact ioctlInv_out hi
  | drain hp => exact ⟨hi.ok, hi.ids, hi.place⟩
  | recv f hp => exact ⟨hi.ok, hi.ids, hi.place⟩
  | deliver origin hp => exact ioctlInv_deliver hi hf
  | drainEnd => exact ⟨hi.ok, hi.ids, hi.place⟩
  | txStart => exact ⟨hi.ok, hi.ids, hi.place⟩
  | txDrop alloc => exact ⟨hi.ok, hi.ids, hi.place⟩
  | txGranted hc => exact ⟨hi.ok, hi.ids, hi.place⟩
  | txTake hp => exact ⟨hi.ok, hi.ids, hi.place⟩
  | txStore => exact ⟨hi.ok, hi.ids, hi.place⟩
  | txWrote => exact ⟨hi.ok, hi.ids, hi.place⟩
  | txWriteErr he => exact ⟨hi.ok, hi.ids, hi.place⟩
  | detach hp => exact ioctlInv_detach hi

end Steps

/-! ## Every run -/

section Runs

open Transition

variable {ι : Type} [DecidableEq ι]

/-- What is assumed of a step: responses arrive before their id is issued again, with their headers inside. -/
def Runtime.Fresh (s : Runtime ι) : Action ι → Prop
  | .deliver origin => FreshAt s.sc s.rxTq origin
  | _ => True

omit [DecidableEq ι] in
theorem ioctlInv_init (slot : IoctlSlot) (ioctlId : UInt16) (txSeq rxMax : UInt8) :
    IoctlInv ⟨(Runtime.init ι slot ioctlId txSeq rxMax).sc, .idle, .idle⟩ :=
  ⟨trivial, fun _ hm => (List.not_mem_nil hm).elim, rfl, rfl⟩

/-- **A caller gets the answer to its own call.** For any callers and frames, in every state reached: a call that has
returned 0 (`EIO`) consumed a response with its id and without (with) the error flag, or its F2 write failed with that
`EIO`; what was written into a buffer is the payload of the response consumed by the GET that owns the buffer, inside
that call; no call consumed two responses, and the `KASSERT` held. -/
theorem ioctl_matched (slot : IoctlSlot) (ioctlId : UInt16) (txSeq rxMax : UInt8) (as : List (Action ι))
    (hf : AllSteps Runtime.step Runtime.Fresh (Runtime.init ι slot ioctlId txSeq rxMax) as) :
    AllStates Runtime.step (fun s => HistoryOk s.sc.hist) (Runtime.init ι slot ioctlId txSeq rxMax) as := by
  have hall := Core.allStates_core (J := IoctlInv) (B := Core.Fresh) ?_
    (fun c a c' _ hi hf hs => ioctlInv_step hi hf hs) (Core.models_init slot ioctlId txSeq rxMax)
    (ioctlInv_init (ι := ι) slot ioctlId txSeq rxMax) hf
  · apply hall.mono
    rintro s ⟨c, hm, hi⟩
    rw [hm.sc_eq]
    exact hi.ok
  · intro s c a s' hm hfresh _
    cases a with
    | deliver origin =>
      have hfr : FreshAt s.sc s.rxTq origin := hfresh
      rw [hm.sc_eq, hm.rxTq_eq] at hfr
      exact hfr
    | _ => trivial

/-- The response to call 1, with one byte of payload. -/
def answer : RxFrame := ⟨29, fun i => if i = 7 then 12 else if i = 22 then 1 else if i = 28 then 42 else 0⟩

/-- The first call of a run from id 0, a GET. -/
def getCall : Call := ⟨1, getReq, 0, 1⟩

/-- A GET up to its F2 write. -/
def getSent : List (Action Unit) := .call () getReq 0 :: List.replicate 7 (.caller ())

/-- The frame is written, the response delivered, and the call returns. -/
def getAnswered : List (Action Unit) :=
  List.append getSent [.write () 0, .drain, .recv answer, .deliver (some 1), .drainEnd, .caller (), .caller ()]

theorem ioctl_matched_get :
    AllStates Runtime.step (fun s => HistoryOk s.sc.hist) (Runtime.init Unit getSlot 0 0 4) getAnswered := by
  apply ioctl_matched getSlot 0 0 4 getAnswered
  iterate 11 refine (allSteps_cons rfl).2 ⟨trivial, ?_⟩
  refine (allSteps_cons rfl).2 ⟨?_, ?_⟩
  · rintro f ⟨⟩
    refine ⟨(by decide : 12 + 16 ≤ 29), ?_⟩
    rintro k ⟨⟩
    exact ⟨getCall, List.mem_cons_of_mem _ List.mem_cons_self, rfl, rfl, (by decide : 1 - 1 < 65536)⟩
  iterate 3 refine (allSteps_cons rfl).2 ⟨trivial, ?_⟩
  exact trivial

/-- A caller can return `EIO` without any response delivered. -/
theorem ioctl_write_eio : ∃ s c, run Runtime.step (Runtime.init Unit getSlot 0 0 4)
    (List.append getSent [.write () eio, .caller (), .caller ()]) = some s ∧
      .ret c eio ∈ s.sc.hist ∧ ∀ f o d, .deliver f o d ∉ s.sc.hist := by
  refine ⟨_, getCall, rfl, List.mem_cons_self, ?_⟩
  intro f o d hm
  have hm : .deliver f o d ∈ [IoctlEvent.ret getCall eio, .writeErr getCall eio, .kassert true, .start getCall] := hm
  simp at hm

end Runs

end Cyw
