import Rpi5Modules.Cyw.Defs

/-!
# Firmware events

`cyw_event_dispatch` parses a frame of the event channel and calls the handler registered for its code. Where the
Ethernet header starts is up to the frame: the SDPCM header gives the offset of the BDC header, and that gives a padding
behind it.

The BDC header is read before anything is known of its position. If it does not lie in the frame, the Ethernet header
starts behind the frame whatever was read, and the frame is dropped (`dispatch_congr`). So a handler is called exactly
for the events that are well formed as a whole, with fields and data from inside the frame (`event_dispatch_spec`).
-/

namespace Cyw

open BufProg

/-! ## Layout -/

def cywEthPLinkCtl : UInt16 := 0x886c
def cywBrcmOui : List UInt8 := [0x00, 0x10, 0x18]
def cywBcmilcpBcmSubtypeEvent : UInt16 := 1
def cywBdcHdrLen : Nat := 4
def cywESetSsid : UInt32 := 0
def cywELink : UInt32 := 16
def cywEPskSup : UInt32 := 46
def cywEIf : UInt32 := 54
def cywEEscanResult : UInt32 := 69
def cywEventMaxCode : UInt32 := 128
def sizeofEtherHeader : Nat := 14
def sizeofBrcmEthhdr : Nat := 10
def sizeofEventMsgBe : Nat := 48

def cywEventMinFrame : Nat :=
  cywSdpcmHdrLen + cywBdcHdrLen + sizeofEtherHeader + sizeofBrcmEthhdr + sizeofEventMsgBe

/-- The fields of `struct cyw_bdc_hdr`, `ether_header`, `cyw_brcm_ethhdr` and `cyw_event_msg_be` the driver reads, for a
header at the given offset. -/
def bdcDataOffset (bdc : Nat) : BufProg UInt8 := byte (bdc + 3)
def etherType (eth : Nat) : BufProg UInt16 := be16 (eth + 12)
def brcmOui (brcm : Nat) : Nat := brcm + 5
def brcmUsrSubtype (brcm : Nat) : BufProg UInt16 := be16 (brcm + 8)
def emsgFlags (emsg : Nat) : BufProg UInt16 := be16 (emsg + 2)
def emsgEventType (emsg : Nat) : BufProg UInt32 := be32 (emsg + 4)
def emsgStatus (emsg : Nat) : BufProg UInt32 := be32 (emsg + 8)
def emsgReason (emsg : Nat) : BufProg UInt32 := be32 (emsg + 12)
def emsgDatalen (emsg : Nat) : BufProg UInt32 := be32 (emsg + 20)
def emsgAddr (emsg : Nat) : BufProg (List UInt8) := bytes (emsg + 24) 6
def emsgIfidx (emsg : Nat) : BufProg UInt8 := byte (emsg + 46)
def emsgBsscfgidx (emsg : Nat) : BufProg UInt8 := byte (emsg + 47)

/-- `struct cyw_event_msg`. -/
structure CywEventMsg where
  code : UInt32
  status : UInt32
  reason : UInt32
  flags : UInt32
  datalen : UInt32
  addr : List UInt8
  ifidx : UInt8
  bsscfgidx : UInt8

/-- What is printed about an event: its fields, and the first bytes of an E_IF payload. -/
structure EventLog where
  code : UInt32
  status : UInt32
  reason : UInt32
  flags : UInt16
  ifidx : UInt8
  bsscfgidx : UInt8
  datalen : UInt32
  ifPayload : List UInt8

/-- A call of a handler: the message, where the data starts in the frame, and how long it is. -/
structure EventCall (H : Type) where
  handler : H
  msg : CywEventMsg
  data : Nat
  datalen : Nat

/-- What `cyw_event_dispatch` does. -/
structure EventOutcome (H : Type) where
  log : Option EventLog
  call : Option (EventCall H)

def EventOutcome.dropped {H : Type} : EventOutcome H := ⟨none, none⟩

/-! ## `cyw_event_dispatch` -/

section Dispatch

variable {H : Type} (handlers : UInt32 → Option H) (flen : UInt16)

/-- `datalen`, clamped to what is present; `size_t` has 64 bits. -/
def eventClamp (flen : UInt16) (data : Nat) (datalen : UInt32) : UInt32 :=
  if (data + datalen.toNat) % 2 ^ 64 > flen.toNat then UInt32.ofNat (flen.toNat - data) else datalen

/-- The bytes of an E_IF payload that are printed. -/
def ifPayload (code datalen : UInt32) (data : Nat) : BufProg (List UInt8) :=
  if code = cywEIf ∧ datalen ≥ 4 then bytes data 4 else pure []

/-- From the event message on, with the data behind it. -/
def cywEventDeliver (emsg data : Nat) : BufProg (EventOutcome H) := do
  let code ← emsgEventType emsg
  let datalen ← emsgDatalen emsg
  let datalen := eventClamp flen data datalen
  let status ← emsgStatus emsg
  let reason ← emsgReason emsg
  let flags ← emsgFlags emsg
  let ifidx ← emsgIfidx emsg
  let bsscfgidx ← emsgBsscfgidx emsg
  let payload ← ifPayload code datalen data
  let log : EventLog := ⟨code, status, reason, flags, ifidx, bsscfgidx, datalen, payload⟩
  if code ≥ cywEventMaxCode then pure ⟨some log, none⟩
  else
    match handlers code with
    | none => pure ⟨some log, none⟩
    | some handler => do
      let addr ← emsgAddr emsg
      pure ⟨some log,
        some ⟨handler, ⟨code, status, reason, flags.toUInt32, datalen, addr, ifidx, bsscfgidx⟩, data, datalen.toNat⟩⟩

/-- From the Ethernet header on. -/
def cywEventValidate (eth : Nat) : BufProg (EventOutcome H) := do
  let brcm := eth + sizeofEtherHeader
  let emsg := brcm + sizeofBrcmEthhdr
  let data := emsg + sizeofEventMsgBe
  let type ← etherType eth
  if type ≠ cywEthPLinkCtl then pure .dropped
  else do
    let oui ← eqBytes (brcmOui brcm) cywBrcmOui
    if !oui then pure .dropped
    else do
      let usrSubtype ← brcmUsrSubtype brcm
      if usrSubtype ≠ cywBcmilcpBcmSubtypeEvent then pure .dropped
      else cywEventDeliver handlers flen emsg data

/-- `cyw_event_dispatch(sc, buf, flen)`, reading `buf`. -/
def cywEventDispatch : BufProg (EventOutcome H) :=
  if flen.toNat < cywEventMinFrame then pure .dropped
  else do
    let dataOffset ← sdpcmDataOffset
    let bdcOffset ← bdcDataOffset dataOffset.toNat
    let bdcLen := cywBdcHdrLen + bdcOffset.toNat * 4
    let ethOff := dataOffset.toNat + bdcLen
    if ethOff + sizeofEtherHeader + sizeofBrcmEthhdr + sizeofEventMsgBe > flen.toNat then pure .dropped
    else cywEventValidate handlers flen ethOff

end Dispatch

/-! ## Well-formed events -/

/-- Where the Ethernet header starts: behind the BDC header and its padding. -/
def ethStart (b : Nat → UInt8) : Nat := (b 7).toNat + 4 + 4 * (b ((b 7).toNat + 3)).toNat

/-- Where the event message starts. -/
def emsgStart (b : Nat → UInt8) : Nat := ethStart b + 24

/-- Where the data behind it starts. -/
def dataStart (b : Nat → UInt8) : Nat := emsgStart b + 48

/-- The event code. -/
def eventCode (b : Nat → UInt8) : Nat := beNat b (emsgStart b + 4) 4

/-- All headers lie in the first `flen` bytes, and they are those of a firmware event. -/
structure WellFormedEvent (b : Nat → UInt8) (flen : Nat) : Prop where
  minFrame : cywEventMinFrame ≤ flen
  fits : dataStart b ≤ flen
  etherType : beNat b (ethStart b + 12) 2 = 0x886c
  oui : b (ethStart b + 19) = 0x00 ∧ b (ethStart b + 20) = 0x10 ∧ b (ethStart b + 21) = 0x18
  usrSubtype : beNat b (ethStart b + 22) 2 = 1

/-- The message decodes the fields of the frame; its `datalen` is what is on the wire, or what is left of the frame. -/
structure CywEventMsg.Decodes (msg : CywEventMsg) (b : Nat → UInt8) (flen : Nat) : Prop where
  code : msg.code.toNat = eventCode b
  flags : msg.flags.toNat = beNat b (emsgStart b + 2) 2
  status : msg.status.toNat = beNat b (emsgStart b + 8) 4
  reason : msg.reason.toNat = beNat b (emsgStart b + 12) 4
  datalen : msg.datalen.toNat = min (beNat b (emsgStart b + 20) 4) (flen - dataStart b)
  addr : msg.addr = (List.range' (emsgStart b + 24) 6).map b
  ifidx : msg.ifidx = b (emsgStart b + 46)
  bsscfgidx : msg.bsscfgidx = b (emsgStart b + 47)

/-! ## Parsing -/

section Parse

variable {H : Type} {handlers : UInt32 → Option H} {flen : UInt16} {b c : Nat → UInt8}

/-- The clamp does not wrap around. -/
theorem toNat_eventClamp {data : Nat} (h : data ≤ flen.toNat) (datalen : UInt32) :
    (eventClamp flen data datalen).toNat = min datalen.toNat (flen.toNat - data) := by
  have hf := flen.toNat_lt
  have hd := datalen.toNat_lt
  have hmod : (data + datalen.toNat) % 2 ^ 64 = data + datalen.toNat := Nat.mod_eq_of_lt (by omega)
  unfold eventClamp
  rw [hmod]
  split
  · rw [UInt32.toNat_ofNat']
    omega
  · omega

/-- The message a handler gets. -/
def eventMsg (b : Nat → UInt8) (flen : UInt16) (emsg data : Nat) : CywEventMsg where
  code := (emsgEventType emsg).result b
  status := (emsgStatus emsg).result b
  reason := (emsgReason emsg).result b
  flags := ((emsgFlags emsg).result b).toUInt32
  datalen := eventClamp flen data ((emsgDatalen emsg).result b)
  addr := (emsgAddr emsg).result b
  ifidx := (emsgIfidx emsg).result b
  bsscfgidx := (emsgBsscfgidx emsg).result b

theorem deliver_call (emsg data : Nat) : ((cywEventDeliver handlers flen emsg data).result b).call =
    if (emsgEventType emsg).result b ≥ cywEventMaxCode then none
    else (handlers ((emsgEventType emsg).result b)).map fun handler =>
      ⟨handler, eventMsg b flen emsg data, data, (eventMsg b flen emsg data).datalen.toNat⟩ := by
  simp only [cywEventDeliver, result_bind]
  split
  · rfl
  · cases handlers ((emsgEventType emsg).result b) with
    | none => rfl
    | some handler => rfl

theorem etherType_iff (eth : Nat) : (etherType eth).result b = cywEthPLinkCtl ↔ beNat b (eth + 12) 2 = 0x886c := by
  rw [← UInt16.toNat_inj, etherType, toNat_be16]
  exact Iff.rfl

theorem usrSubtype_iff (brcm : Nat) :
    (brcmUsrSubtype brcm).result b = cywBcmilcpBcmSubtypeEvent ↔ beNat b (brcm + 8) 2 = 1 := by
  rw [← UInt16.toNat_inj, brcmUsrSubtype, toNat_be16]
  exact Iff.rfl

theorem oui_iff (off : Nat) : (eqBytes off cywBrcmOui).result b = true ↔
    b off = 0x00 ∧ b (off + 1) = 0x10 ∧ b (off + 2) = 0x18 := by
  rw [result_eqBytes]
  simp [cywBrcmOui, List.range'_succ]

/-- A frame that is long enough is parsed from its Ethernet header on. -/
theorem dispatch_fits (hmin : cywEventMinFrame ≤ flen.toNat) (hfits : dataStart b ≤ flen.toNat) :
    (cywEventDispatch handlers flen).result b = (cywEventValidate handlers flen (ethStart b)).result b := by
  have heth : (b 7).toNat + (cywBdcHdrLen + (b ((b 7).toNat + 3)).toNat * 4) = ethStart b := by
    simp only [ethStart, cywBdcHdrLen]
    omega
  have hfits' : ¬ethStart b + sizeofEtherHeader + sizeofBrcmEthhdr + sizeofEventMsgBe > flen.toNat := by
    simp only [dataStart, emsgStart] at hfits
    simp only [sizeofEtherHeader, sizeofBrcmEthhdr, sizeofEventMsgBe]
    omega
  simp only [cywEventDispatch, Nat.not_lt.2 hmin, if_false, result_bind, sdpcmDataOffset, bdcDataOffset, result_byte,
    heth, hfits']

/-- Any other frame is dropped. -/
theorem dispatch_dropped (h : ¬(cywEventMinFrame ≤ flen.toNat ∧ dataStart b ≤ flen.toNat)) :
    (cywEventDispatch handlers flen).result b = .dropped := by
  by_cases hmin : flen.toNat < cywEventMinFrame
  · simp only [cywEventDispatch, hmin, if_true, result_pure]
  · have hfits : ethStart b + sizeofEtherHeader + sizeofBrcmEthhdr + sizeofEventMsgBe > flen.toNat := by
      have hlong : ¬dataStart b ≤ flen.toNat := fun hd => h ⟨Nat.le_of_not_lt hmin, hd⟩
      simp only [dataStart, emsgStart] at hlong
      simp only [sizeofEtherHeader, sizeofBrcmEthhdr, sizeofEventMsgBe]
      omega
    have heth : (b 7).toNat + (cywBdcHdrLen + (b ((b 7).toNat + 3)).toNat * 4) = ethStart b := by
      simp only [ethStart, cywBdcHdrLen]
      omega
    simp only [cywEventDispatch, hmin, if_false, result_bind, sdpcmDataOffset, bdcDataOffset, result_byte, heth, hfits,
      if_true, result_pure]

/-- The header checks, passed. -/
theorem validate_pass {eth : Nat} (ht : beNat b (eth + 12) 2 = 0x886c)
    (ho : b (eth + 19) = 0x00 ∧ b (eth + 20) = 0x10 ∧ b (eth + 21) = 0x18) (hu : beNat b (eth + 22) 2 = 1) :
    (cywEventValidate handlers flen eth).result b =
      (cywEventDeliver handlers flen (eth + 24) (eth + 24 + 48)).result b := by
  have ht' := (etherType_iff eth).2 ht
  have ho' : (eqBytes (brcmOui (eth + sizeofEtherHeader)) cywBrcmOui).result b = true := (oui_iff (eth + 19)).2 ho
  have hu' : (brcmUsrSubtype (eth + sizeofEtherHeader)).result b = cywBcmilcpBcmSubtypeEvent :=
    (usrSubtype_iff (eth + 14)).2 hu
  simp only [cywEventValidate, result_bind, ht', ho', hu', ne_eq, not_true, Bool.not_true, Bool.false_eq_true,
    if_false]
  rfl

/-- One of them failed. -/
theorem validate_fail {eth : Nat} (h : ¬(beNat b (eth + 12) 2 = 0x886c ∧
      (b (eth + 19) = 0x00 ∧ b (eth + 20) = 0x10 ∧ b (eth + 21) = 0x18) ∧ beNat b (eth + 22) 2 = 1)) :
    (cywEventValidate handlers flen eth).result b = .dropped := by
  simp only [cywEventValidate, result_bind]
  by_cases ht : (etherType eth).result b = cywEthPLinkCtl
  · rw [if_neg (not_not_intro ht), result_bind]
    cases ho : (eqBytes (brcmOui (eth + sizeofEtherHeader)) cywBrcmOui).result b with
    | false => simp only [Bool.not_false, if_true, result_pure]
    | true =>
      have hu : ¬(brcmUsrSubtype (eth + sizeofEtherHeader)).result b = cywBcmilcpBcmSubtypeEvent := fun hu =>
        h ⟨(etherType_iff eth).1 ht, (oui_iff (eth + 19)).1 ho, (usrSubtype_iff (eth + 14)).1 hu⟩
      simp only [Bool.not_true, Bool.false_eq_true, if_false, result_bind, ne_eq, hu, not_false_eq_true, if_true,
        result_pure]
  · rw [if_pos ht]
    rfl

/-- **Parsing**: a well-formed event is delivered, anything else dropped. -/
theorem dispatch_wellFormed (h : WellFormedEvent b flen.toNat) : (cywEventDispatch handlers flen).result b =
    (cywEventDeliver handlers flen (emsgStart b) (dataStart b)).result b :=
  (dispatch_fits h.minFrame h.fits).trans (validate_pass h.etherType h.oui h.usrSubtype)

theorem dispatch_malformed (h : ¬WellFormedEvent b flen.toNat) :
    (cywEventDispatch handlers flen).result b = .dropped := by
  by_cases hfits : cywEventMinFrame ≤ flen.toNat ∧ dataStart b ≤ flen.toNat
  · rw [dispatch_fits hfits.1 hfits.2]
    exact validate_fail fun hv => h ⟨hfits.1, hfits.2, hv.1, hv.2.1, hv.2.2⟩
  · exact dispatch_dropped hfits

/-- The handler's message decodes the frame. -/
theorem eventMsg_decodes (h : dataStart b ≤ flen.toNat) :
    (eventMsg b flen (emsgStart b) (dataStart b)).Decodes b flen.toNat where
  code := toNat_be32 b _
  flags := (UInt16.toNat_toUInt32 _).trans (toNat_be16 b _)
  status := toNat_be32 b _
  reason := toNat_be32 b _
  datalen := by
    rw [← toNat_be32]
    exact toNat_eventClamp h _
  addr := result_bytes b _ _
  ifidx := rfl
  bsscfgidx := rfl

/-- The call made for a well-formed event. -/
theorem dispatch_call_iff (call : EventCall H) : ((cywEventDispatch handlers flen).result b).call = some call ↔
    (WellFormedEvent b flen.toNat ∧ eventCode b < 128 ∧ handlers (eventMsg b flen (emsgStart b) (dataStart b)).code =
      some call.handler) ∧ call = ⟨call.handler, eventMsg b flen (emsgStart b) (dataStart b), dataStart b,
        (eventMsg b flen (emsgStart b) (dataStart b)).datalen.toNat⟩ := by
  by_cases h : WellFormedEvent b flen.toNat
  · have hcode : (emsgEventType (emsgStart b)).result b ≥ cywEventMaxCode ↔ ¬eventCode b < 128 := by
      rw [ge_iff_le, UInt32.le_iff_toNat_le, emsgEventType, toNat_be32]
      exact Nat.not_lt.symm
    rw [dispatch_wellFormed h, deliver_call]
    by_cases hc : eventCode b < 128
    · rw [if_neg fun hge => hcode.1 hge hc, Option.map_eq_some_iff]
      constructor
      · rintro ⟨handler, hh, rfl⟩
        exact ⟨⟨h, hc, hh⟩, rfl⟩
      · rintro ⟨⟨-, -, hh⟩, hcall⟩
        exact ⟨call.handler, hh, hcall.symm⟩
    · rw [if_pos (hcode.2 hc)]
      exact iff_of_false (fun hs => by cases hs) fun hs => hc hs.1.2.1
  · rw [dispatch_malformed h]
    exact iff_of_false (fun hs => by cases hs) fun hs => h hs.1.1

/-! ## Nothing behind the frame matters -/

theorem deliver_within {emsg : Nat} (h : emsg + 48 ≤ flen.toNat) :
    (cywEventDeliver handlers flen emsg (emsg + 48)).Within b flen.toNat := by
  have hpayload : ∀ code datalen, (ifPayload code (eventClamp flen (emsg + 48) datalen) (emsg + 48)).Within b
      flen.toNat := by
    intro code datalen
    refine within_ite.2 ⟨fun hp => within_bytes.2 (.inr ?_), fun _ => within_pure _⟩
    have hclamp := toNat_eventClamp h datalen
    have hfour : 4 ≤ (eventClamp flen (emsg + 48) datalen).toNat := hp.2
    omega
  have haddr : (emsgAddr emsg).Within b flen.toNat := within_bytes.2 (.inr (by omega))
  simp only [cywEventDeliver, within_bind, emsgEventType, emsgDatalen, emsgStatus, emsgReason, emsgFlags, emsgIfidx,
    emsgBsscfgidx, within_be32, within_be16, within_byte]
  refine ⟨by omega, by omega, by omega, by omega, by omega, by omega, by omega, hpayload _ _, ?_⟩
  refine within_ite.2 ⟨fun _ => within_pure _, fun _ => ?_⟩
  generalize (be32 (emsg + 4)).result b = code
  cases handlers code with
  | none => exact within_pure _
  | some handler => exact within_bind.2 ⟨haddr, within_pure _⟩

theorem validate_within {eth : Nat} (h : eth + 72 ≤ flen.toNat) :
    (cywEventValidate handlers flen eth).Within b flen.toNat := by
  have houi : (eqBytes (brcmOui (eth + sizeofEtherHeader)) cywBrcmOui).Within b flen.toNat := by
    apply within_eqBytes
    simp only [brcmOui, sizeofEtherHeader, cywBrcmOui, List.length_cons, List.length_nil]
    omega
  have htype : (etherType eth).Within b flen.toNat := within_be16.2 (by omega)
  have hsub : (brcmUsrSubtype (eth + sizeofEtherHeader)).Within b flen.toNat :=
    within_be16.2 (by simp only [sizeofEtherHeader]; omega)
  have hdeliver : (cywEventDeliver handlers flen (eth + sizeofEtherHeader + sizeofBrcmEthhdr)
      (eth + sizeofEtherHeader + sizeofBrcmEthhdr + sizeofEventMsgBe)).Within b flen.toNat :=
    deliver_within (by simp only [sizeofEtherHeader, sizeofBrcmEthhdr]; omega)
  refine within_bind.2 ⟨htype, within_ite.2 ⟨fun _ => within_pure _, fun _ => within_bind.2 ⟨houi, ?_⟩⟩⟩
  refine within_ite.2 ⟨fun _ => within_pure _, fun _ => within_bind.2 ⟨hsub, ?_⟩⟩
  exact within_ite.2 ⟨fun _ => within_pure _, fun _ => hdeliver⟩

/-- The outcome depends on the first `flen` bytes only: the one byte read of a BDC header behind the frame does not
save the frame. -/
theorem dispatch_congr (hbc : ∀ i < flen.toNat, b i = c i) :
    (cywEventDispatch handlers flen).result b = (cywEventDispatch handlers flen).result c := by
  by_cases hmin : cywEventMinFrame ≤ flen.toNat
  · have hmin' : 88 ≤ flen.toNat := hmin
    have h7 : b 7 = c 7 := hbc 7 (by omega)
    by_cases hbdc : (b 7).toNat + 3 < flen.toNat
    · have heth : ethStart b = ethStart c := by
        unfold ethStart
        rw [← h7, hbc _ hbdc]
      have hdata : dataStart b = dataStart c := by
        unfold dataStart emsgStart
        rw [heth]
      by_cases hfits : dataStart b ≤ flen.toNat
      · have hin : (cywEventValidate handlers flen (ethStart b)).Within b flen.toNat := validate_within hfits
        rw [dispatch_fits hmin hfits, dispatch_fits hmin (hdata ▸ hfits), ← heth]
        exact hin.result_eq hbc
      · rw [dispatch_dropped fun h => hfits h.2, dispatch_dropped fun h => hfits (hdata ▸ h.2)]
    · have hb : ¬dataStart b ≤ flen.toNat := by
        simp only [dataStart, emsgStart, ethStart]
        omega
      have hc : ¬dataStart c ≤ flen.toNat := by
        simp only [dataStart, emsgStart, ethStart, ← h7]
        omega
      rw [dispatch_dropped fun h => hb h.2, dispatch_dropped fun h => hc h.2]
  · rw [dispatch_dropped fun h => hmin h.1, dispatch_dropped fun h => hmin h.1]

/-- **Event dispatch** calls a handler exactly for the well-formed events with a code below 128 for which one is
registered; it passes the decoded fields and the data behind the message, cut to the frame; and nothing it does depends
on what lies behind the frame. -/
theorem event_dispatch_spec (handlers : UInt32 → Option H) (flen : UInt16) (b : Nat → UInt8) :
    ((∃ call, ((cywEventDispatch handlers flen).result b).call = some call) ↔
        WellFormedEvent b flen.toNat ∧ eventCode b < 128 ∧
          ∃ handler, handlers (UInt32.ofNat (eventCode b)) = some handler) ∧
      (∀ call, ((cywEventDispatch handlers flen).result b).call = some call →
        handlers call.msg.code = some call.handler ∧ call.msg.Decodes b flen.toNat ∧ call.data = dataStart b ∧
          call.datalen = min (beNat b (emsgStart b + 20) 4) (flen.toNat - dataStart b) ∧
          call.data + call.datalen ≤ flen.toNat) ∧
      ∀ c, (∀ i < flen.toNat, b i = c i) →
        (cywEventDispatch handlers flen).result b = (cywEventDispatch handlers flen).result c := by
  have hcode : UInt32.ofNat (eventCode b) = (eventMsg b flen (emsgStart b) (dataStart b)).code := by
    rw [eventCode, ← toNat_be32, UInt32.ofNat_toNat]
    rfl
  refine ⟨⟨?_, ?_⟩, ?_, fun c hbc => dispatch_congr hbc⟩
  · rintro ⟨call, hcall⟩
    obtain ⟨⟨hw, hc, hh⟩, -⟩ := (dispatch_call_iff call).1 hcall
    exact ⟨hw, hc, call.handler, hcode ▸ hh⟩
  · rintro ⟨hw, hc, handler, hh⟩
    exact ⟨_, (dispatch_call_iff ⟨handler, _, _, _⟩).2 ⟨⟨hw, hc, hcode ▸ hh⟩, rfl⟩⟩
  · intro call hcall
    obtain ⟨⟨hw, -, hh⟩, hcalleq⟩ := (dispatch_call_iff call).1 hcall
    have hdec := eventMsg_decodes hw.fits
    have hfits := hw.fits
    have hlen := hdec.datalen
    rw [hcalleq]
    refine ⟨hh, hdec, rfl, hlen, ?_⟩
    show dataStart b + (eventMsg b flen (emsgStart b) (dataStart b)).datalen.toNat ≤ flen.toNat
    omega

end Parse

end Cyw
