import Rpi5Modules.Cyw.IoctlMatch

/-!
# The run-time path, watched

What the SDPCM task makes of a frame for the call that waits, and what that call returns in the end.

- `RxFrame.outcome` is what the polling loop of the boot path makes of one frame; for a call that waits,
  `cyw_sdpcm_deliver_ctrl` makes the same of a control frame (`delivery_ignored`, `delivery_answer`);
- `Watch` is the interleaved system with a log of the frames gone through for each call;
- the log is in step with the `ioctl_*` fields (`logInv_step`): a call returns the outcome of the first frame it has
  heard that has one, and once it has heard one nothing holds it up (`Watch.returns_of_heard`).
-/

namespace Cyw

open BufProg Transition

/-! ## What a frame means to a call -/

namespace RxFrame

/-- The frame is one of the control channel. -/
def Ctrl (f : RxFrame) : Prop := sdpcmChanFlags.result f.buf &&& 0x0f = cywSdpcmChanCtrl

instance (f : RxFrame) : Decidable f.Ctrl := inferInstanceAs (Decidable (_ = _))

/-- A control frame long enough for a BCDC header that bears the id. -/
structure Bears (f : RxFrame) (id : UInt16) : Prop where
  ctrl : f.Ctrl
  long : cywSdpcmHdrLen + cywBcdcHdrLen ≤ f.flen.toNat
  id : f.id = id

/-- What the polling loop makes of the frame: the error to return and the bytes for the caller's buffer. -/
def outcome (r : Req) (id : UInt16) (f : RxFrame) : Option (Errno × Option (List UInt8)) :=
  (cywFilTxrxPoll r id f.flen).result f.buf

end RxFrame

section Outcome

variable {r : Req} {id : UInt16} {f : RxFrame}

/-- What an answer of the right id comes to. -/
def answerOutcome (r : Req) (f : RxFrame) : Errno × Option (List UInt8) :=
  if f.IsError then (eio, none)
  else if r.hasBuf && !r.isSet then
    (0, some ((bytes (f.bch + cywBcdcHdrLen)
      (min r.buflen (ptrDiff f.flen.toNat (f.bch + cywBcdcHdrLen)))).result f.buf))
  else (0, none)

theorem outcome_of_bears (h : f.Bears id) : f.outcome r id = some (answerOutcome r f) := by
  have hlen : ¬f.flen.toNat < cywSdpcmHdrLen + cywBcdcHdrLen := Nat.not_lt.2 h.long
  have hch : ¬sdpcmChanFlags.result f.buf &&& 0x0f ≠ cywSdpcmChanCtrl := not_not_intro h.ctrl
  have hid : ¬bcdcId ((bcdcFlags (sdpcmDataOffset.result f.buf).toNat).result f.buf) ≠ id := not_not_intro h.id
  unfold RxFrame.outcome cywFilTxrxPoll answerOutcome
  simp only [hlen, if_false, result_bind, hch, hid]
  split
  · next he =>
    rw [if_pos (show f.IsError from he)]
    rfl
  · next he =>
    rw [if_neg (show ¬f.IsError from he)]
    split
    · simp only [result_bind, result_pure]
      rfl
    · rfl

theorem outcome_of_not_bears (h : ¬f.Bears id) : f.outcome r id = none := by
  unfold RxFrame.outcome cywFilTxrxPoll
  split
  · rfl
  · next hlen =>
    simp only [result_bind]
    split
    · rfl
    · next hch =>
      simp only [result_bind]
      rw [if_pos]
      · rfl
      · exact fun hid => h ⟨not_not.1 hch, Nat.le_of_not_lt hlen, hid⟩

/-- A frame ends the transaction exactly when it bears the id. -/
theorem outcome_isSome : (f.outcome r id).isSome ↔ f.Bears id := by
  constructor
  · intro h
    by_contra hb
    rw [outcome_of_not_bears hb] at h
    cases h
  · intro h
    rw [outcome_of_bears h]
    rfl

/-- The outcome of the first frame that has one, a timeout if none has. -/
def firstOutcome (r : Req) (id : UInt16) (fs : List RxFrame) : Errno × Option (List UInt8) :=
  (fs.findSome? (RxFrame.outcome r id)).getD (etimedout, none)

theorem findSome?_isSome {fs : List RxFrame} :
    (fs.findSome? (RxFrame.outcome r id)).isSome ↔ ∃ f ∈ fs, f.Bears id := by
  rw [List.findSome?_isSome_iff]
  simp only [outcome_isSome]

end Outcome

/-! ## What a delivery does -/

section Delivery

variable {sc : IoctlSlot} {f : RxFrame} {c : Call}

/-- A frame nobody waits for, or that does not bear the id waited for, is discarded. -/
theorem delivery_ignored (hc : f.Ctrl) (h : sc.ioctlWaiting = true → ¬f.Bears sc.ioctlWaitId) :
    (cywSdpcmDeliverCtrl sc f.flen).result f.buf = .none sc := by
  unfold cywSdpcmDeliverCtrl
  split
  · rfl
  · next hlen =>
    simp only [result_bind]
    rw [if_pos]
    · rfl
    · rw [Bool.or_eq_true, Bool.not_eq_true', bne_iff_ne]
      cases hw : sc.ioctlWaiting with
      | false => exact .inl rfl
      | true => exact .inr fun hid => h hw ⟨hc, Nat.le_of_not_lt hlen, hid⟩

/-- With nobody waiting, nothing is read but what the header takes, and nothing is done. -/
theorem delivery_not_waiting (hw : sc.ioctlWaiting = false) :
    (cywSdpcmDeliverCtrl sc f.flen).result f.buf = .none sc := by
  unfold cywSdpcmDeliverCtrl
  split
  · rfl
  · simp only [result_bind]
    rw [hw, if_pos (by simp)]
    rfl

/-- A delivery is a discard, or it signals and leaves nobody waiting. -/
theorem delivery_cases :
    (cywSdpcmDeliverCtrl sc f.flen).result f.buf = .none sc ∨
      ((cywSdpcmDeliverCtrl sc f.flen).result f.buf).signal = true ∧
        ((cywSdpcmDeliverCtrl sc f.flen).result f.buf).slot.ioctlWaiting = false := by
  unfold cywSdpcmDeliverCtrl
  split
  · exact .inl rfl
  · simp only [result_bind]
    split
    · exact .inl rfl
    · split
      · exact .inr ⟨rfl, rfl⟩
      · split
        · simp only [result_bind]
          exact .inr ⟨rfl, rfl⟩
        · exact .inr ⟨rfl, rfl⟩

/-- **The two parsers agree**: a control frame that bears the id of the call that waits leaves in the slot and in the
caller's buffer what the polling loop returns and copies. -/
theorem delivery_answer (hw : sc.ioctlWaiting = true) (hs : SlotOf sc c) (hb : f.Bears c.id) :
    ∃ status, (cywSdpcmDeliverCtrl sc f.flen).result f.buf =
      ⟨{ sc with ioctlFwStatus := status, ioctlResult := (answerOutcome c.req f).1, ioctlWaiting := false },
        (answerOutcome c.req f).2.map (Prod.mk c.buf), true⟩ := by
  have hlen : ¬f.flen.toNat < cywSdpcmHdrLen + cywBcdcHdrLen := Nat.not_lt.2 hb.long
  have hm : ¬(!sc.ioctlWaiting || f.id != sc.ioctlWaitId) = true := by
    rw [hw, hs.id, hb.id]
    simp
  unfold cywSdpcmDeliverCtrl
  rw [if_neg hlen]
  simp only [result_bind]
  rw [if_neg (show ¬(!sc.ioctlWaiting ||
    bcdcId ((bcdcFlags (sdpcmDataOffset.result f.buf).toNat).result f.buf) != sc.ioctlWaitId) = true from hm)]
  by_cases he : f.IsError
  · have he' : (bcdcFlags (sdpcmDataOffset.result f.buf).toNat).result f.buf &&& bcdcDcmdError ≠ 0 := he
    refine ⟨(bcdcStatus f.bch).result f.buf, ?_⟩
    rw [if_pos he', answerOutcome, if_pos he]
    rfl
  · have he' : ¬(bcdcFlags (sdpcmDataOffset.result f.buf).toNat).result f.buf &&& bcdcDcmdError ≠ 0 := he
    refine ⟨sc.ioctlFwStatus, ?_⟩
    rw [if_neg he', answerOutcome, if_neg he, hs.get, hs.respBuf, hs.buflen]
    cases hB : c.req.hasBuf with
    | false => cases hS : c.req.isSet <;> rfl
    | true =>
      cases hS : c.req.isSet with
      | true => rfl
      | false =>
        simp only [Bool.not_false, Bool.and_true, if_true, result_bind, result_pure]
        rfl

end Delivery

/-! ## The run-time path, watched -/

/-- What is written down about a call of `cyw_fil_txrx` from the moment it is armed: the frames the SDPCM task has
gone through since, up to the moment the caller has its result; the payloads copied; whether the F2 write succeeded;
whether `cyw_sdpcm_detach` interfered. -/
structure Trans where
  call : Call
  heard : List RxFrame
  copied : List (Nat × List UInt8)
  wrote : Bool
  detached : Bool

/-- The call in the transaction, once it is armed, and the calls that have returned, with what they returned. -/
structure Log where
  cur : Option Trans
  done : List (Trans × Errno)

namespace Log

/-- Something is written down about the current call. -/
def edit (l : Log) (f : Trans → Trans) : Log := { l with cur := l.cur.map f }

/-- A frame is gone through, if the call has no result yet. -/
def hear (l : Log) (p : CallerPc) (f : RxFrame) : Log :=
  if p.armed.isSome then l.edit fun t => { t with heard := t.heard ++ [f] } else l

/-- The log after an action, by where the call in the transaction is. -/
def note (l : Log) (c : Core) : Action Unit → Log
  | .caller _ =>
    match c.pc with
    | .arming call _ => { l with cur := some ⟨call, [], [], false, false⟩ }
    | .out _ err => ⟨none, (l.cur.map fun t => (t, err)).toList ++ l.done⟩
    | _ => l
  | .write _ err => l.edit fun t => { t with wrote := err == 0 }
  | .recv f => if f.Ctrl then l else l.hear c.pc f
  | .deliver _ =>
    match c.rxTq with
    | .deliver f => (l.hear c.pc f).edit fun t => { t with copied := t.copied ++ (c.sc.delivery f).copy.toList }
    | _ => l
  | .detach => l.edit fun t => { t with detached := true }
  | _ => l

end Log

/-- The system and the log of its calls. -/
structure Watch (ι : Type) where
  rt : Runtime ι
  log : Log

namespace Watch

variable {ι : Type} [DecidableEq ι]

omit [DecidableEq ι] in
/-- Where the call in the transaction is, what it shares, and where the `rx_tq` thread is. -/
def core (s : Watch ι) : Core where
  sc := s.rt.sc
  pc := match s.rt.ioctlSx with
    | some i => s.rt.pc i
    | none => .idle
  rxTq := s.rt.rxTq

/-- A step of the system, written down. -/
def step (s : Watch ι) (a : Action ι) : Option (Watch ι) :=
  (s.rt.step a).map fun rt => ⟨rt, s.log.note s.core (Core.label a)⟩

omit [DecidableEq ι] in
def init (ι : Type) (slot : IoctlSlot) (ioctlId : UInt16) (txSeq rxMax : UInt8) : Watch ι :=
  ⟨Runtime.init ι slot ioctlId txSeq rxMax, none, []⟩

theorem core_eq {s : Watch ι} {c : Core} (h : Core.Models s.rt c) : s.core = c := by
  obtain ⟨rt, l⟩ := s
  obtain ⟨o, rfl, hf⟩ := h
  obtain ⟨sc, p, q⟩ := c
  cases o with
  | none =>
    obtain rfl : p = .idle := hf.idle.2 rfl
    rfl
  | some i => simp [core, Core.spread]

end Watch

/-! ## The invariant of the log -/

/-- The outcome of what the call has heard. -/
def Trans.result (t : Trans) : Errno × Option (List UInt8) := firstOutcome t.call.req t.call.id t.heard

/-- The slot is that of the call, which waits until it has heard a frame with an outcome; the outcome is what the slot
holds and what was copied. -/
structure Trans.Live (slot : IoctlSlot) (t : Trans) : Prop where
  slotOf : SlotOf slot t.call
  waiting : slot.ioctlWaiting = (t.heard.findSome? (RxFrame.outcome t.call.req t.call.id)).isNone
  result : slot.ioctlResult = t.result.1
  copied : t.copied = t.result.2.toList.map (Prod.mk t.call.buf)

/-- The call returned the outcome of what it heard, with that in its buffer. -/
def Trans.Ok (t : Trans) (err : Errno) : Prop :=
  t.wrote = true → t.detached = false → err = t.result.1 ∧ t.copied = t.result.2.toList.map (Prod.mk t.call.buf)

/-- The current call is `c`, and its log is in step with the slot. -/
def Listens (slot : IoctlSlot) (l : Log) (c : Call) (wrote : Bool) : Prop :=
  ∃ t, l.cur = some t ∧ t.call = c ∧ t.wrote = wrote ∧ (t.detached = false → t.Live slot)

/-- The log, by where the caller is. -/
def LogAt (slot : IoctlSlot) (l : Log) : CallerPc → Prop
  | .f2Lock c _ => Listens slot l c false
  | .f2Write c _ => Listens slot l c false
  | .failed _ _ => ∃ t, l.cur = some t ∧ t.wrote = false
  | .wait c => Listens slot l c true
  | .asleep c => Listens slot l c true ∧ slot.ioctlWaiting = true
  | .woken c cerr => Listens slot l c true ∧ (cerr = 0 → slot.ioctlWaiting = false)
  | .out _ err => ∀ t, l.cur = some t → slot.ioctlWaiting = false ∧ t.Ok err
  | _ => l.cur = none

/-- **The invariant of the log.** -/
structure LogInv (c : Core) (l : Log) : Prop where
  ctrl : ∀ f, c.rxTq = .deliver f → f.Ctrl
  place : LogAt c.sc.slot l c.pc
  done : ∀ t err, (t, err) ∈ l.done → t.Ok err

section LogInv

variable {slot slot' : IoctlSlot} {l : Log} {p : CallerPc} {c : Call} {t : Trans} {f : RxFrame} {w : Bool} {err : Errno}

/-- The log of the current call grows. -/
theorem Listens.edit (h : Listens slot l c w) {g : Trans → Trans} (hcall : ∀ t, (g t).call = t.call)
    (hw : ∀ t, (g t).wrote = t.wrote) (hlive : ∀ t, (g t).detached = false → t.detached = false ∧
      (t.Live slot → (g t).Live slot')) : Listens slot' (l.edit g) c w := by
  obtain ⟨t, ht, hc, hwt, hl⟩ := h
  refine ⟨g t, ?_, (hcall t).trans hc, (hw t).trans hwt, fun hd => ?_⟩
  · rw [Log.edit, ht]
    rfl
  · exact (hlive t hd).2 (hl (hlive t hd).1)

/-- A frame without outcome. -/
theorem Trans.Live.hear (h : t.Live slot) (hf : f.outcome t.call.req t.call.id = none) :
    { t with heard := t.heard ++ [f] }.Live slot := by
  have hfind : (t.heard ++ [f]).findSome? (RxFrame.outcome t.call.req t.call.id) =
      t.heard.findSome? (RxFrame.outcome t.call.req t.call.id) := by
    rw [List.findSome?_append, List.findSome?_cons, hf, List.findSome?_nil, Option.or_none]
  have hres : { t with heard := t.heard ++ [f] }.result = t.result := by
    simp only [Trans.result, firstOutcome, hfind]
  refine ⟨h.slotOf, ?_, ?_, ?_⟩
  · rw [hfind]
    exact h.waiting
  · rw [hres]
    exact h.result
  · rw [hres]
    exact h.copied

/-- **A control frame is delivered to the call.** -/
theorem Trans.Live.deliver (h : t.Live slot) (hc : f.Ctrl) {d : Delivery}
    (hd : (cywSdpcmDeliverCtrl slot f.flen).result f.buf = d) :
    { t with heard := t.heard ++ [f], copied := t.copied ++ d.copy.toList }.Live d.slot := by
  have hkeep : d = .none slot → t.heard.findSome? (RxFrame.outcome t.call.req t.call.id) =
      (t.heard ++ [f]).findSome? (RxFrame.outcome t.call.req t.call.id) →
      { t with heard := t.heard ++ [f], copied := t.copied ++ d.copy.toList }.Live d.slot := by
    rintro rfl hfind
    refine ⟨h.slotOf, ?_, ?_, ?_⟩
    · rw [← hfind]
      exact h.waiting
    · simp only [Trans.result, firstOutcome, ← hfind]
      exact h.result
    · simp only [Trans.result, firstOutcome, ← hfind, Delivery.none, Option.toList_none, List.append_nil]
      exact h.copied
  cases ho : t.heard.findSome? (RxFrame.outcome t.call.req t.call.id) with
  | some out =>
    have hw : slot.ioctlWaiting = false := by rw [h.waiting, ho]; rfl
    apply hkeep (hd.symm.trans (delivery_not_waiting hw))
    rw [List.findSome?_append, ho]
    rfl
  | none =>
    have hw : slot.ioctlWaiting = true := by rw [h.waiting, ho]; rfl
    by_cases hb : f.Bears t.call.id
    · obtain ⟨status, hans⟩ := delivery_answer hw h.slotOf hb
      rw [hans] at hd
      subst hd
      have hfind : (t.heard ++ [f]).findSome? (RxFrame.outcome t.call.req t.call.id) =
          some (answerOutcome t.call.req f) := by
        rw [List.findSome?_append, ho, List.findSome?_cons, outcome_of_bears hb]
        rfl
      refine ⟨⟨h.slotOf.id, h.slotOf.respBuf, h.slotOf.buflen, h.slotOf.get⟩, ?_, ?_, ?_⟩
      · rw [hfind]
        rfl
      · simp only [Trans.result, firstOutcome, hfind]
        rfl
      · have hnil : t.copied = [] := by
          rw [h.copied, Trans.result, firstOutcome, ho]
          rfl
        simp only [Trans.result, firstOutcome, hfind, hnil, Option.getD_some, List.nil_append]
        cases (answerOutcome t.call.req f).2 <;> rfl
    · have hign := delivery_ignored hc fun _ => h.slotOf.id ▸ hb
      apply hkeep (hd.symm.trans hign)
      rw [List.findSome?_append, ho, List.findSome?_cons, outcome_of_not_bears hb]
      rfl

/-- Nothing is written down about the current call. -/
theorem edit_none (h : l.cur = none) (g : Trans → Trans) : (l.edit g).cur = none := by
  rw [Log.edit, h]
  rfl

/-- The calls that have returned stay as they are. -/
theorem done_hear (l : Log) (p : CallerPc) (f : RxFrame) : (l.hear p f).done = l.done := by
  unfold Log.hear
  split <;> rfl

/-- A signal passes a caller that does not sleep. -/
theorem ite_wake (hp : p.sleeps = false) {b : Bool} : (if b then p.wake else p) = p := by
  cases p with
  | asleep c => cases hp
  | _ => exact ite_self _

/-- A frame of another channel is gone through. -/
theorem LogAt.hear (hi : LogAt slot l p) (hf : ¬f.Ctrl) : LogAt slot (l.hear p f) p := by
  have hnone : ∀ r id, f.outcome r id = none := fun r id => outcome_of_not_bears fun hb => hf hb.ctrl
  have hl : ∀ {c w}, Listens slot l c w → Listens slot (l.edit fun t => { t with heard := t.heard ++ [f] }) c w :=
    fun h => h.edit (fun _ => rfl) (fun _ => rfl) fun t hd => ⟨hd, fun hlive => hlive.hear (hnone _ _)⟩
  cases p with
  | f2Lock c seq => exact hl hi
  | f2Write c seq => exact hl hi
  | failed c err =>
    obtain ⟨t, ht, hw⟩ := hi
    refine ⟨{ t with heard := t.heard ++ [f] }, ?_, hw⟩
    show (l.edit _).cur = _
    rw [Log.edit, ht]
    rfl
  | wait c => exact hl hi
  | asleep c => exact ⟨hl hi.1, hi.2⟩
  | woken c cerr => exact ⟨hl hi.1, hi.2⟩
  | _ => exact hi

/-- **A control frame is delivered.** -/
theorem LogAt.deliver (hi : LogAt slot l p) (hc : f.Ctrl) {d : Delivery}
    (hd : (cywSdpcmDeliverCtrl slot f.flen).result f.buf = d) :
    LogAt d.slot ((l.hear p f).edit fun t => { t with copied := t.copied ++ d.copy.toList })
      (if d.signal then p.wake else p) := by
  have hcases : d = .none slot ∨ d.signal = true ∧ d.slot.ioctlWaiting = false := hd ▸ delivery_cases
  have hl : ∀ {c w}, Listens slot l c w → Listens d.slot ((l.edit fun t => { t with heard := t.heard ++ [f] }).edit
      fun t => { t with copied := t.copied ++ d.copy.toList }) c w := by
    rintro c w ⟨t, ht, hcall, hw, hlive⟩
    refine ⟨{ t with heard := t.heard ++ [f], copied := t.copied ++ d.copy.toList }, ?_, hcall, hw, fun hdet => ?_⟩
    · rw [Log.edit, Log.edit, ht]
      rfl
    · exact (hlive hdet).deliver hc hd
  have hkeep : slot.ioctlWaiting = false → d.slot.ioctlWaiting = false := by
    intro hw
    rcases hcases with rfl | hs
    · exact hw
    · exact hs.2
  cases p with
  | f2Lock c seq => rw [ite_wake rfl]; exact hl hi
  | f2Write c seq => rw [ite_wake rfl]; exact hl hi
  | failed c err =>
    obtain ⟨t, ht, hw⟩ := hi
    rw [ite_wake rfl]
    refine ⟨{ t with heard := t.heard ++ [f], copied := t.copied ++ d.copy.toList }, ?_, hw⟩
    show ((l.edit _).edit _).cur = _
    rw [Log.edit, Log.edit, ht]
    rfl
  | wait c => rw [ite_wake rfl]; exact hl hi
  | asleep c =>
    rcases hcases with rfl | ⟨hs, hw⟩
    · exact ⟨hl hi.1, hi.2⟩
    · rw [if_pos hs]
      exact ⟨hl hi.1, fun _ => hw⟩
  | woken c cerr => rw [ite_wake rfl]; exact ⟨hl hi.1, fun h => hkeep (hi.2 h)⟩
  | out c err =>
    rw [ite_wake rfl]
    intro t ht
    obtain ⟨t₀, ht₀, rfl⟩ := Option.map_eq_some_iff.1 ht
    obtain ⟨hw, hok⟩ := hi t₀ ht₀
    have hnone : d = .none slot := hd.symm.trans (delivery_not_waiting hw)
    have hcopied : t₀.copied ++ d.copy.toList = t₀.copied := by
      rw [hnone]
      exact List.append_nil _
    simp only [hcopied]
    exact ⟨hkeep hw, hok⟩
  | _ => rw [ite_wake rfl]; exact edit_none hi _

/-- The detach. -/
theorem LogAt.detach {sc : Softc} (hi : LogAt sc.slot l p) :
    LogAt sc.detach.slot (l.edit fun t => { t with detached := true })
      (if sc.slot.ioctlWaiting then p.wake else p) := by
  have hw : sc.detach.slot.ioctlWaiting = false := by
    unfold Softc.detach
    split
    · rfl
    · next h => exact Bool.eq_false_iff.2 h
  have hl : ∀ {c w}, Listens sc.slot l c w →
      Listens sc.detach.slot (l.edit fun t => { t with detached := true }) c w :=
    fun h => h.edit (fun _ => rfl) (fun _ => rfl) nofun
  cases p with
  | f2Lock c seq => rw [ite_wake rfl]; exact hl hi
  | f2Write c seq => rw [ite_wake rfl]; exact hl hi
  | failed c err =>
    obtain ⟨t, ht, hwt⟩ := hi
    rw [ite_wake rfl]
    exact ⟨{ t with detached := true }, by rw [Log.edit, ht]; rfl, hwt⟩
  | wait c => rw [ite_wake rfl]; exact hl hi
  | asleep c =>
    rw [if_pos hi.2]
    exact ⟨hl hi.1, fun _ => hw⟩
  | woken c cerr => rw [ite_wake rfl]; exact ⟨hl hi.1, fun _ => hw⟩
  | out c err =>
    rw [ite_wake rfl]
    intro t ht
    obtain ⟨t₀, -, rfl⟩ := Option.map_eq_some_iff.1 ht
    exact ⟨hw, fun _ hd => Bool.noConfusion hd⟩
  | _ => rw [ite_wake rfl]; exact edit_none hi _

/-- The call is armed. -/
theorem listens_arm (sc : Softc) (c : Call) (done : List (Trans × Errno)) :
    Listens (sc.arm c).slot ⟨some ⟨c, [], [], false, false⟩, done⟩ c false :=
  ⟨_, rfl, rfl, rfl, fun _ => ⟨⟨rfl, rfl, rfl, rfl⟩, rfl, rfl, rfl⟩⟩

/-- The F2 write ends. -/
theorem Listens.write (h : Listens slot l c w) (err : Errno) :
    Listens slot (l.edit fun t => { t with wrote := err == 0 }) c (err == 0) := by
  obtain ⟨t, ht, hc, -, hl⟩ := h
  refine ⟨{ t with wrote := err == 0 }, ?_, hc, rfl, fun hd => ?_⟩
  · rw [Log.edit, ht]
    rfl
  · exact ⟨(hl hd).slotOf, (hl hd).waiting, (hl hd).result, (hl hd).copied⟩

/-- The call takes the result from the slot. -/
theorem Listens.out (h : Listens slot l c w) : ∀ t, l.cur = some t → t.Ok slot.ioctlResult := by
  obtain ⟨t, ht, -, -, hl⟩ := h
  intro t' ht'
  cases ht.symm.trans ht'
  exact fun _ hd => ⟨(hl hd).result, (hl hd).copied⟩

/-- The log of a call that has its result. -/
theorem mem_done_out {cur : Option Trans} {done : List (Trans × Errno)} {t : Trans} {err e : Errno}
    (hcur : ∀ t, cur = some t → t.Ok err) (hdone : ∀ t e, (t, e) ∈ done → t.Ok e)
    (hm : (t, e) ∈ (cur.map fun t => (t, err)).toList ++ done) : t.Ok e := by
  rcases List.mem_append.1 hm with hm | hm
  · cases cur with
    | none => cases hm
    | some t₀ =>
      obtain ⟨rfl, rfl⟩ := Prod.mk.inj (List.mem_singleton.1 hm)
      exact hcur t rfl
  · exact hdone t e hm

/-- **A step keeps the invariant of the log.** -/
theorem logInv_step {x x' : Core} {a : Action Unit} (hi : LogInv x l) (hs : x.Step a x') : LogInv x' (l.note x a) := by
  cases hs with
  | call r buf => exact ⟨hi.ctrl, hi.place, hi.done⟩
  | credit => exact ⟨hi.ctrl, hi.place, hi.done⟩
  | again m => exact ⟨hi.ctrl, hi.place, hi.done⟩
  | refused hc =>
    have hn : l.cur = none := hi.place
    exact ⟨hi.ctrl, fun t ht => (nomatch hn.symm.trans ht), hi.done⟩
  | granted hc => exact ⟨hi.ctrl, hi.place, hi.done⟩
  | lock => exact ⟨hi.ctrl, hi.place, hi.done⟩
  | arm => exact ⟨hi.ctrl, listens_arm _ _ _, hi.done⟩
  | f2Lock hq => exact ⟨hi.ctrl, hi.place, hi.done⟩
  | wrote =>
    have hl : Listens _ l _ false := hi.place
    exact ⟨hi.ctrl, hl.write 0, hi.done⟩
  | writeErr he =>
    have hl : Listens _ l _ false := hi.place
    obtain ⟨t, ht, -, hw, -⟩ := hl.write _
    exact ⟨hi.ctrl, ⟨t, ht, hw.trans (beq_eq_false_iff_ne.2 he)⟩, hi.done⟩
  | failed =>
    obtain ⟨t, ht, hw⟩ := hi.place
    refine ⟨hi.ctrl, fun t' ht' => ⟨rfl, fun hw' => ?_⟩, hi.done⟩
    cases ht.symm.trans ht'
    exact absurd (hw.symm.trans hw') (by decide)
  | sleep hw => exact ⟨hi.ctrl, ⟨hi.place, hw⟩, hi.done⟩
  | answered hw =>
    have hl : Listens _ l _ true := hi.place
    exact ⟨hi.ctrl, fun t ht => ⟨hw, hl.out t ht⟩, hi.done⟩
  | timeout => exact ⟨hi.ctrl, ⟨hi.place.1, fun h => by cases h⟩, hi.done⟩
  | timedOut he =>
    obtain ⟨hl, -⟩ := hi.place
    exact ⟨hi.ctrl, fun t ht => ⟨rfl, hl.out t ht⟩, hi.done⟩
  | signalled =>
    obtain ⟨hl, hw⟩ := hi.place
    exact ⟨hi.ctrl, fun t ht => ⟨hw rfl, hl.out t ht⟩, hi.done⟩
  | out => exact ⟨hi.ctrl, rfl, fun t e hm => mem_done_out (fun t ht => (hi.place t ht).2) hi.done hm⟩
  | drain hp => exact ⟨nofun, hi.place, hi.done⟩
  | @recv sc p f hp =>
    by_cases hc : f.Ctrl
    · have hl : l.note ⟨sc, p, .drain⟩ (.recv f) = l := if_pos hc
      have hq : (if sdpcmChanFlags.result f.buf &&& 0x0f = cywSdpcmChanCtrl then RxTqPc.deliver f else .drain) =
        .deliver f := if_pos hc
      rw [hl, hq]
      exact ⟨fun g hg => by cases hg; exact hc, hi.place, hi.done⟩
    · have hl : l.note ⟨sc, p, .drain⟩ (.recv f) = l.hear p f := if_neg hc
      have hq : (if sdpcmChanFlags.result f.buf &&& 0x0f = cywSdpcmChanCtrl then RxTqPc.deliver f else .drain) =
        .drain := if_neg hc
      rw [hl, hq]
      exact ⟨nofun, LogAt.hear hi.place hc, done_hear l p f ▸ hi.done⟩
  | @deliver sc p f origin hp =>
    refine ⟨nofun, LogAt.deliver hi.place (hi.ctrl f rfl) rfl, ?_⟩
    show ∀ t e, (t, e) ∈ (l.hear p f).done → t.Ok e
    rw [done_hear]
    exact hi.done
  | drainEnd => exact ⟨nofun, hi.place, hi.done⟩
  | txStart => exact ⟨nofun, hi.place, hi.done⟩
  | txDrop alloc => exact ⟨nofun, hi.place, hi.done⟩
  | txGranted hc => exact ⟨nofun, hi.place, hi.done⟩
  | txTake hp => exact ⟨nofun, hi.place, hi.done⟩
  | txStore => exact ⟨nofun, hi.place, hi.done⟩
  | txWrote => exact ⟨nofun, hi.place, hi.done⟩
  | txWriteErr he => exact ⟨nofun, hi.place, hi.done⟩
  | detach hp => exact ⟨hi.ctrl, LogAt.detach hi.place, hi.done⟩

end LogInv

/-! ## Every run -/

namespace Watch

variable {ι : Type} [DecidableEq ι] {s s' : Watch ι} {a : Action ι} {i : ι} {t : Trans} {err : Errno}

/-- The caller in the transaction returns within two steps of its own. -/
def Returns (s : Watch ι) (t : Trans) : Prop :=
  ∃ i n s' err, n ≤ 2 ∧ run step s (List.replicate n (.caller i)) = some s' ∧ (t, err) ∈ s'.log.done

/-- **The invariant of the watched system.** -/
def Inv (s : Watch ι) : Prop := ∃ c, Core.Models s.rt c ∧ LogInv c s.log

theorem inv_init (slot : IoctlSlot) (ioctlId : UInt16) (txSeq rxMax : UInt8) :
    (init ι slot ioctlId txSeq rxMax).Inv :=
  ⟨_, Core.models_init slot ioctlId txSeq rxMax, nofun, rfl, nofun⟩

theorem inv_step (hi : s.Inv) (hs : s.step a = some s') : s'.Inv := by
  obtain ⟨c, hm, hl⟩ := hi
  obtain ⟨rt, hrt, rfl⟩ := Option.map_eq_some_iff.1 hs
  obtain ⟨c', hstep, hm'⟩ := Core.step_refines hm hrt
  refine ⟨c', hm', ?_⟩
  rw [core_eq hm]
  exact logInv_step hl hstep

theorem inv_run {as : List (Action ι)} (hi : s.Inv) (hr : run step s as = some s') : s'.Inv :=
  (allStates_inv (fun _ _ _ => inv_step) hi as).last hr

omit [DecidableEq ι] in
theorem core_pc (hsx : s.rt.ioctlSx = some i) : s.core.pc = s.rt.pc i := by
  unfold core
  rw [hsx]

/-- At `out` one step is left. -/
theorem returns_out {c : Call} (hsx : s.rt.ioctlSx = some i) (hpc : s.rt.pc i = .out c err)
    (hcur : s.log.cur = some t) : ∃ s', s.step (.caller i) = some s' ∧ (t, err) ∈ s'.log.done := by
  have hrt : s.rt.step (.caller i) =
      some { s.rt with sc := s.rt.sc.ret c err, ioctlSx := none, pc := Function.update s.rt.pc i .idle } := by
    simp only [Runtime.step, Runtime.caller, hpc]
  refine ⟨_, congrArg (Option.map _) hrt, ?_⟩
  simp only [Core.label, Log.note, core_pc hsx, hpc, hcur]
  exact List.mem_append_left _ List.mem_cons_self

/-- A caller that is awake and has its answer goes to `out` in one step. -/
theorem leaves_wait {c : Call} (hsx : s.rt.ioctlSx = some i) (hmtx : s.rt.mtx = none)
    (hpc : s.rt.pc i = .wait c ∧ s.rt.sc.slot.ioctlWaiting = false ∨ ∃ cerr, s.rt.pc i = .woken c cerr) :
    ∃ s' err, s.step (.caller i) = some s' ∧ s'.rt.ioctlSx = some i ∧ s'.rt.pc i = .out c err ∧ s'.log = s.log := by
  rcases hpc with ⟨hpc, hw⟩ | ⟨cerr, hpc⟩
  · have hrt : s.rt.step (.caller i) =
        some { s.rt with pc := Function.update s.rt.pc i (.out c s.rt.sc.slot.ioctlResult) } := by
      simp only [Runtime.step, Runtime.caller, hpc, hmtx, hw, Bool.false_eq_true, if_false]
    refine ⟨_, _, congrArg (Option.map _) hrt, hsx, Function.update_self i _ _, ?_⟩
    simp only [Core.label, Log.note, core_pc hsx, hpc]
  · generalize hsc : (if cerr ≠ 0 then s.rt.sc.unwait else s.rt.sc) = sc
    have hrt : s.rt.step (.caller i) =
        some { s.rt with sc := sc, pc := Function.update s.rt.pc i (.out c sc.slot.ioctlResult) } := by
      simp only [Runtime.step, Runtime.caller, hpc, hmtx, hsc]
    refine ⟨_, _, congrArg (Option.map _) hrt, hsx, Function.update_self i _ _, ?_⟩
    simp only [Core.label, Log.note, core_pc hsx, hpc]

/-- **A call that has heard its answer returns**: nothing holds it up any more. -/
theorem returns_of_heard (hi : s.Inv) (hcur : s.log.cur = some t) (hw : t.wrote = true) (hd : t.detached = false)
    (hb : ∃ f ∈ t.heard, f.Bears t.call.id) : s.Returns t := by
  obtain ⟨x, hm, hl⟩ := hi
  obtain ⟨sc, p, q⟩ := x
  have hplace : LogAt sc.slot s.log p := hl.place
  have hsome : (t.heard.findSome? (RxFrame.outcome t.call.req t.call.id)).isSome := findSome?_isSome.2 hb
  -- the log is that of the caller at `p`
  have hlisten : ∀ {c w}, Listens sc.slot s.log c w → t.wrote = w ∧ sc.slot.ioctlWaiting = false := by
    rintro c w ⟨t', ht', -, hw', hlive⟩
    cases hcur.symm.trans ht'
    refine ⟨hw', ?_⟩
    rw [(hlive hd).waiting, Option.isNone_eq_false_iff]
    exact hsome
  have hnone : ¬s.log.cur = none := fun h => nomatch hcur.symm.trans h
  have hhold : ∀ {p' : CallerPc}, p = p' → p' ≠ .idle → p'.holdsMtx = false →
      ∃ i, s.rt.pc i = p' ∧ s.rt.ioctlSx = some i ∧ s.rt.mtx = none := by
    rintro p' rfl hne hmtx
    obtain ⟨i, hpc⟩ := hm.exists_pc hne
    refine ⟨i, hpc, hm.holder (hpc ▸ hne), ?_⟩
    obtain ⟨o, hs, -⟩ := hm
    rw [hs]
    exact if_neg (Bool.eq_false_iff.1 hmtx)
  have hlast : ∀ {c i}, s.rt.ioctlSx = some i → s.rt.mtx = none →
      (s.rt.pc i = .wait c ∧ s.rt.sc.slot.ioctlWaiting = false ∨ ∃ cerr, s.rt.pc i = .woken c cerr) → s.Returns t := by
    intro c i hsx hmtx hpc
    obtain ⟨s₁, err, hs₁, hsx₁, hpc₁, hlog₁⟩ := leaves_wait hsx hmtx hpc
    obtain ⟨s₂, hs₂, hdone⟩ := returns_out hsx₁ hpc₁ (hlog₁ ▸ hcur)
    refine ⟨i, 2, s₂, err, Nat.le_refl 2, ?_, hdone⟩
    exact run_cons_some.2 ⟨s₁, hs₁, run_cons_some.2 ⟨s₂, hs₂, rfl⟩⟩
  cases p with
  | f2Lock c seq => exact nomatch hw.symm.trans (hlisten hplace).1
  | f2Write c seq => exact nomatch hw.symm.trans (hlisten hplace).1
  | failed c err =>
    obtain ⟨t', ht', hw'⟩ := hplace
    cases hcur.symm.trans ht'
    exact nomatch hw.symm.trans hw'
  | wait c =>
    obtain ⟨i, hpc, hsx, hmtx⟩ := hhold rfl nofun rfl
    exact hlast hsx hmtx (.inl ⟨hpc, hm.sc_eq ▸ (hlisten hplace).2⟩)
  | asleep c => exact nomatch hplace.2.symm.trans (hlisten hplace.1).2
  | woken c cerr =>
    obtain ⟨i, hpc, hsx, hmtx⟩ := hhold rfl nofun rfl
    exact hlast hsx hmtx (.inr ⟨cerr, hpc⟩)
  | out c err =>
    obtain ⟨i, hpc, hsx, -⟩ := hhold rfl nofun rfl
    obtain ⟨s', hs', hdone⟩ := returns_out hsx hpc hcur
    exact ⟨i, 1, s', err, by decide, run_cons_some.2 ⟨s', hs', rfl⟩, hdone⟩
  | _ => exact (hnone hplace).elim

end Watch

end Cyw
