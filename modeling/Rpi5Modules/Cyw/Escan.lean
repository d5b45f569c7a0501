import Rpi5Modules.Cyw.Defs

/-!
# Scan results

`cyw_escan_result_handler` walks the `bss_info_le` records of an E_ESCAN_RESULT event, `cyw_add_bss` reads the fixed
part of a record and locates its information elements, `cyw_parse_ies` walks these.

- the element walk never leaves the record it is given (`cywParseIes_within`, `ieWindow_inside`);
- the record walk compares each length with the event's `buflen`, which it never reduces: it stays inside the event
  exactly when the plausible records, counted together behind the 12-byte header, fit (`escan_inside_iff`).
-/

namespace Cyw

open BufProg

/-! ## Chanspecs -/

def cywChspecChanMask : UInt16 := 0x00ff
def cywChspecD11nSbMask : UInt16 := 0x0300
def cywChspecD11nSbShift : UInt16 := 8
def cywChspecD11nSbLower : UInt16 := 0x01
def cywChspecD11nSbUpper : UInt16 := 0x02
def cywChspecD11nBwMask : UInt16 := 0x0c00
def cywChspecD11nBwShift : UInt16 := 10
def cywChspecD11nBw40 : UInt16 := 0x03
def cywChspecD11acBandMask : UInt16 := 0xc000
def cywChspecD11acBand5g : UInt16 := 0xc000
def cywChspecD11acBwMask : UInt16 := 0x3800
def cywChspecD11acBw40 : UInt16 := 0x1800
def cywChspecD11acBw80 : UInt16 := 0x2000
def cywChspecD11acSbMask : UInt16 := 0x0700
def cywChspecD11acSbLll : UInt16 := 0x0000
def cywChspecD11acSbLlu : UInt16 := 0x0100
def cywChspecD11acSbLul : UInt16 := 0x0200
def cywChspecD11acSbLuu : UInt16 := 0x0300
def cywChspecD11acSbL : UInt16 := 0x0000
def cywChspecD11acSbU : UInt16 := 0x0100

/-- `cyw_chanspec_to_channel(chanspec)`: the primary channel. -/
def cywChanspecToChannel (chanspec : UInt16) : Int :=
  let ch : Int := (chanspec &&& cywChspecChanMask).toNat
  if chanspec &&& cywChspecD11acBandMask = cywChspecD11acBand5g then
    let bw := chanspec &&& cywChspecD11acBwMask
    let sb := chanspec &&& cywChspecD11acSbMask
    if bw = cywChspecD11acBw80 then
      if sb = cywChspecD11acSbLll then ch - 6
      else if sb = cywChspecD11acSbLlu then ch - 2
      else if sb = cywChspecD11acSbLul then ch + 2
      else if sb = cywChspecD11acSbLuu then ch + 6
      else ch
    else if bw = cywChspecD11acBw40 then
      if sb = cywChspecD11acSbL then ch - 2 else if sb = cywChspecD11acSbU then ch + 2 else ch
    else ch
  else
    let bw := (chanspec &&& cywChspecD11nBwMask) >>> cywChspecD11nBwShift
    let sb := (chanspec &&& cywChspecD11nSbMask) >>> cywChspecD11nSbShift
    if bw = cywChspecD11nBw40 then
      if sb = cywChspecD11nSbLower then ch - 2 else if sb = cywChspecD11nSbUpper then ch + 2 else ch
    else ch

/-! ## Information elements -/

def elemidSsid : UInt8 := 0
def elemidRates : UInt8 := 1
def elemidCountry : UInt8 := 7
def elemidHtcap : UInt8 := 45
def elemidRsn : UInt8 := 48
def elemidXrates : UInt8 := 50
def elemidHtinfo : UInt8 := 61
def elemidVendor : UInt8 := 221

def cywRates2g : List UInt8 := [elemidRates, 8, 0x82, 0x84, 0x8b, 0x96, 0x0c, 0x12, 0x18, 0x24]
def cywRates5g : List UInt8 := [elemidRates, 8, 0x8c, 0x12, 0x98, 0x24, 0xb0, 0x48, 0x60, 0x6c]

/-- An element pointer of `struct ieee80211_scanparams`: NULL, an element the driver made itself, or the element at
an offset of the record. -/
inductive IePtr where
  | null
  | own (ie : List UInt8)
  | chain (p : Nat)
deriving DecidableEq

/-- The element pointers of `struct ieee80211_scanparams`. -/
structure ScanParams where
  ssid : IePtr
  rates : IePtr
  xrates : IePtr
  country : IePtr
  rsn : IePtr
  htcap : IePtr
  htinfo : IePtr
  wpa : IePtr
  wme : IePtr
  ies : IePtr
  iesLen : UInt16

/-- `len >= 4 && p[2]==0x00 && p[3]==0x50 && p[4]==0xf2 && p[5]==type`. -/
def vendorIs (len : UInt8) (p : Nat) (type : UInt8) : BufProg Bool :=
  if len ≥ 4 then eqBytes (p + 2) [0x00, 0x50, 0xf2, type] else pure false

/-- The `switch` of `cyw_parse_ies`, for the element at `p`. -/
def parseIe (sp : ScanParams) (id len : UInt8) (p : Nat) : BufProg ScanParams :=
  if id = elemidSsid then pure (if len > 0 then { sp with ssid := .chain p } else sp)
  else if id = elemidRates then pure { sp with rates := .chain p }
  else if id = elemidXrates then pure { sp with xrates := .chain p }
  else if id = elemidCountry then pure { sp with country := .chain p }
  else if id = elemidRsn then pure { sp with rsn := .chain p }
  else if id = elemidHtcap then pure { sp with htcap := .chain p }
  else if id = elemidHtinfo then pure { sp with htinfo := .chain p }
  else if id = elemidVendor then do
    let wpa ← vendorIs len p 0x01
    let sp := if wpa then { sp with wpa := .chain p } else sp
    let wme ← vendorIs len p 0x02
    pure (if wme then { sp with wme := .chain p } else sp)
  else pure sp

/-- The loop of `cyw_parse_ies`: the parameters found and `valid_end`. -/
def cywParseIesLoop (sp : ScanParams) (p endp validEnd : Nat) : BufProg (ScanParams × Nat) :=
  if p + 2 ≤ endp then do
    let id ← byte p
    let len ← byte (p + 1)
    if p + 2 + len.toNat > endp then pure (sp, validEnd)
    else do
      let sp ← parseIe sp id len p
      cywParseIesLoop sp (p + 2 + len.toNat) endp (p + 2 + len.toNat)
  else pure (sp, validEnd)
termination_by endp - p

/-- `cyw_parse_ies(sp, ie, ie_len)`. -/
def cywParseIes (sp : ScanParams) (ie : Nat) (ieLen : UInt16) : BufProg ScanParams := do
  let (sp, validEnd) ← cywParseIesLoop sp ie (ie + ieLen.toNat) ie
  pure { sp with ies := .chain ie, iesLen := UInt16.ofNat (validEnd - ie) }

/-! ## One record -/

/-- `sizeof(struct cyw_bss_info_le)`. -/
def sizeofBssInfo : Nat := 128

/-- The fields of `struct cyw_bss_info_le` the driver reads. -/
def bssInfoLength : BufProg UInt32 := le32 4
def bssInfoBssid : BufProg (List UInt8) := bytes 8 6
def bssInfoBeaconPeriod : BufProg UInt16 := le16 14
def bssInfoCapability : BufProg UInt16 := le16 16
def bssInfoSsidLen : BufProg UInt8 := byte 18
def bssInfoChanspec : BufProg UInt16 := le16 72
def bssInfoRssi : BufProg UInt16 := le16 78
def bssInfoPhyNoise : BufProg UInt8 := byte 80
def bssInfoIeOffset : BufProg UInt16 := le16 116
def bssInfoIeLength : BufProg UInt32 := le32 120

/-- Where `cyw_add_bss` looks for the elements of a record of `bi_len` bytes: `ie_off` and `ie_len`. -/
def ieWindow (biLen : UInt32) : BufProg (UInt16 × UInt16) := do
  let off ← bssInfoIeOffset
  let ieOff := if off < UInt16.ofNat sizeofBssInfo ∨ off ≥ biLen.toUInt16 then UInt16.ofNat sizeofBssInfo else off
  let ieLen := if biLen > ieOff.toUInt32 then (biLen - ieOff.toUInt32).toUInt16 else 0
  pure (ieOff, ieLen)

/-- What `cyw_add_bss` makes of a record: the BSSID and chanspec it caches, and the arguments of its call of
`ieee80211_add_scan`, where `rssi` is the level of the record and the call passes `rssi - noise`. -/
structure BssReport where
  bssid : List UInt8
  chanspec : UInt16
  chan : Int
  rssi : Int16
  noise : Int8
  capinfo : UInt16
  bintval : UInt16
  sp : ScanParams

/-- `cyw_add_bss(sc, bi, bi_len)`, as far as it reads the record. -/
def cywAddBss (biLen : UInt32) : BufProg BssReport := do
  let chanspec ← bssInfoChanspec
  let chan := cywChanspecToChannel chanspec
  let rssi ← bssInfoRssi
  let phyNoise ← bssInfoPhyNoise
  let noise : Int8 := if phyNoise ≠ 0 then phyNoise.toInt8 else -95
  let bssid ← bssInfoBssid
  let (ieOff, ieLen) ← ieWindow biLen
  let ssidLen ← bssInfoSsidLen
  let n : UInt8 := if ssidLen > 32 then 32 else ssidLen
  let ssid ← bytes 19 n.toNat
  -- only printed
  let _ ← bssInfoIeLength
  let capinfo ← bssInfoCapability
  let bintval ← bssInfoBeaconPeriod
  let sp : ScanParams :=
    { ssid := .own (elemidSsid :: n :: ssid), rates := .own (if chan ≤ 14 then cywRates2g else cywRates5g),
      xrates := .null, country := .null, rsn := .null, htcap := .null, htinfo := .null, wpa := .null, wme := .null,
      ies := .null, iesLen := 0 }
  let sp ← if ieLen > 0 then cywParseIes sp ieOff.toNat ieLen else pure sp
  pure ⟨bssid, chanspec, chan, rssi.toInt16, noise, capinfo, bintval, sp⟩

/-! ## The event -/

def cywEStatusPartial : UInt32 := 8

/-- `sizeof(struct cyw_escan_result_le)`, and where its `bss_info_le` starts. -/
def sizeofEscanResult : Nat := 140
def escanBssInfo : Nat := 12

def escanBuflen : BufProg UInt32 := le32 0
def escanBssCount : BufProg UInt16 := le16 10

/-- A record passed to `cyw_add_bss`, with what that makes of it. -/
structure BssEntry where
  bi : Nat
  biLen : UInt32
  report : BssReport

/-- The loop of `cyw_escan_result_handler`, at the record at `bi`. -/
def cywEscanLoop (buflen : UInt32) : (bssCount : Nat) → (bi : Nat) → BufProg (List BssEntry)
  | 0, _ => pure []
  | bssCount + 1, bi => do
    let biLen ← bssInfoLength.shift bi
    if biLen < UInt32.ofNat sizeofBssInfo ∨ biLen > buflen then pure []
    else do
      let report ← (cywAddBss biLen).shift bi
      let rest ← cywEscanLoop buflen bssCount (bi + biLen.toNat)
      pure (⟨bi, biLen, report⟩ :: rest)

/-- How `cyw_escan_result_handler` ends: the scan is over, the event is dropped, or these records were added. -/
inductive EscanOutcome where
  | scanDone
  | tooShort
  | added (entries : List BssEntry)

def EscanOutcome.entries : EscanOutcome → List BssEntry
  | added es => es
  | _ => []

/-- `buflen`, cut to the event's length. -/
def escanClamp (buflen : UInt32) (datalen : Nat) : UInt32 :=
  if buflen > UInt32.ofNat datalen then UInt32.ofNat datalen else buflen

/-- `cyw_escan_result_handler(sc, msg, data, datalen)`, reading `data`. -/
def cywEscanResultHandler (status : UInt32) (datalen : Nat) : BufProg EscanOutcome :=
  if status ≠ cywEStatusPartial then pure .scanDone
  else if datalen < sizeofEscanResult then pure .tooShort
  else do
    let buflen ← escanBuflen
    let bssCount ← escanBssCount
    if bssCount = 0 then pure (.added [])
    else do
      let entries ← cywEscanLoop (escanClamp buflen datalen) bssCount.toNat escanBssInfo
      pure (.added entries)

/-! ## The element walk stays inside the record -/

section Record

variable {b : Nat → UInt8} {n : Nat}

theorem vendorIs_within {len : UInt8} {p : Nat} (h : p + 2 + len.toNat ≤ n) (type : UInt8) :
    (vendorIs len p type).Within b n := by
  unfold vendorIs
  refine within_ite.2 ⟨fun h4 => within_eqBytes ?_, fun _ => within_pure false⟩
  have : (4 : UInt8).toNat ≤ len.toNat := h4
  have h4' : (4 : UInt8).toNat = 4 := rfl
  simp only [List.length_cons, List.length_nil]
  omega

theorem parseIe_within (sp : ScanParams) (id : UInt8) {len : UInt8} {p : Nat} (h : p + 2 + len.toNat ≤ n) :
    (parseIe sp id len p).Within b n := by
  unfold parseIe
  simp only [within_ite, within_pure, implies_true, true_and, and_true, within_bind]
  intros
  exact ⟨vendorIs_within h _, vendorIs_within h _⟩

theorem cywParseIesLoop_within (sp : ScanParams) (p endp validEnd : Nat) (h : endp ≤ n) :
    (cywParseIesLoop sp p endp validEnd).Within b n := by
  rw [cywParseIesLoop]
  refine within_ite.2 ⟨fun hp => ?_, fun _ => within_pure _⟩
  simp only [within_bind, within_byte, result_byte]
  refine ⟨by omega, by omega, within_ite.2 ⟨fun _ => within_pure _, fun hlen => ?_⟩⟩
  rw [within_bind]
  exact ⟨parseIe_within _ _ (by omega), cywParseIesLoop_within _ _ _ _ h⟩
termination_by endp - p
decreasing_by omega

theorem cywParseIes_within (sp : ScanParams) {ie : Nat} {ieLen : UInt16} (h : ie + ieLen.toNat ≤ n) :
    (cywParseIes sp ie ieLen).Within b n := by
  rw [cywParseIes, within_bind]
  exact ⟨cywParseIesLoop_within _ _ _ _ h, within_pure _⟩

/-- The element window lies inside the record, whatever its `ie_offset`. -/
theorem ieWindow_inside {biLen : UInt32} (h : sizeofBssInfo ≤ biLen.toNat) :
    ((ieWindow biLen).result b).1.toNat + ((ieWindow biLen).result b).2.toNat ≤ biLen.toNat := by
  simp only [sizeofBssInfo] at h
  simp only [ieWindow, result_bind, result_pure]
  generalize bssInfoIeOffset.result b = off
  have hoff : (if off < UInt16.ofNat sizeofBssInfo ∨ off ≥ biLen.toUInt16 then UInt16.ofNat sizeofBssInfo
      else off).toNat ≤ biLen.toNat := by
    split
    · exact h
    · rename_i hn
      have hlt : off.toNat < biLen.toUInt16.toNat := by
        have := (not_or.1 hn).2
        exact Nat.lt_of_not_le this
      rw [UInt32.toNat_toUInt16] at hlt
      omega
  generalize (if off < UInt16.ofNat sizeofBssInfo ∨ off ≥ biLen.toUInt16 then UInt16.ofNat sizeofBssInfo
      else off) = ieOff at hoff
  split
  · rename_i hgt
    have hle : ieOff.toUInt32 ≤ biLen := by
      rw [UInt32.le_iff_toNat_le, UInt16.toNat_toUInt32]
      exact hoff
    rw [UInt32.toNat_toUInt16, UInt32.toNat_sub_of_le _ _ hle, UInt16.toNat_toUInt32]
    omega
  · exact hoff

/-- `cyw_add_bss` reads inside a record that holds the fixed part. -/
theorem cywAddBss_within {biLen : UInt32} (h : sizeofBssInfo ≤ biLen.toNat) :
    (cywAddBss biLen).Within b biLen.toNat := by
  have hwin := ieWindow_inside (b := b) h
  simp only [sizeofBssInfo] at h
  have hssid : ∀ (m : UInt8) [Decidable (m > 32)], (if m > 32 then (32 : UInt8) else m).toNat ≤ 32 := by
    intro m _
    split
    · exact Nat.le_refl 32
    · rename_i hm
      exact Nat.le_of_not_lt hm
  simp only [cywAddBss, bssInfoChanspec, bssInfoRssi, bssInfoPhyNoise, bssInfoBssid, bssInfoSsidLen, bssInfoIeLength,
    bssInfoCapability, bssInfoBeaconPeriod, within_bind, within_le16, within_le32, within_byte, within_bytes,
    result_byte]
  have hie : (ieWindow biLen).Within b biLen.toNat := by
    simp only [ieWindow, bssInfoIeOffset, within_bind, within_le16, within_pure, and_true]
    omega
  refine ⟨by omega, by omega, by omega, by omega, hie, by omega, .inr ?_, by omega, by omega, by omega, ?_⟩
  · exact Nat.le_trans (Nat.add_le_add_left (hssid _) 19) (by omega)
  · refine within_ite.2 ⟨fun _ => ?_, fun _ => within_pure _⟩
    exact within_bind.2 ⟨cywParseIes_within _ hwin, within_pure _⟩

end Record

/-! ## The record walk -/

/-- The record at `bi`, as a buffer of its own. -/
def recBuf (b : Nat → UInt8) (bi : Nat) : Nat → UInt8 := fun i => b (bi + i)

/-- The range passed to `cyw_add_bss` lies inside the event, and the elements it examines inside that range. -/
def BssEntry.Inside (e : BssEntry) (b : Nat → UInt8) (datalen : Nat) : Prop :=
  e.bi + e.biLen.toNat ≤ datalen ∧
    ∀ sp, (cywParseIes sp ((ieWindow e.biLen).result (recBuf b e.bi)).1.toNat
      ((ieWindow e.biLen).result (recBuf b e.bi)).2).Within (recBuf b e.bi) e.biLen.toNat

/-- The length field of the record at `bi`. -/
def lengthAt (b : Nat → UInt8) (bi : Nat) : UInt32 := bssInfoLength.result (recBuf b bi)

/-- The lengths of the consecutive records from `bi` on, at most `bssCount`, that are at least the fixed part and at
most `buflen`. -/
def plausibleLens (b : Nat → UInt8) (buflen : UInt32) : (bssCount : Nat) → (bi : Nat) → List Nat
  | 0, _ => []
  | bssCount + 1, bi =>
    if lengthAt b bi < UInt32.ofNat sizeofBssInfo ∨ lengthAt b bi > buflen then []
    else (lengthAt b bi).toNat :: plausibleLens b buflen bssCount (bi + (lengthAt b bi).toNat)

/-- The records `lens` fit behind `bi`, and so does one more length field if there are more records to come. -/
def RecordsFit (datalen bssCount bi : Nat) (lens : List Nat) : Prop :=
  bi + lens.sum ≤ datalen ∧ (lens.length < bssCount → bi + lens.sum + 8 ≤ datalen)

section Walk

variable {b : Nat → UInt8} {datalen : Nat} {buflen : UInt32}

/-- The walk and what it passes on stay inside the event. -/
def WalkInside (b : Nat → UInt8) (datalen : Nat) (buflen : UInt32) (bssCount bi : Nat) : Prop :=
  (cywEscanLoop buflen bssCount bi).Within b datalen ∧
    ∀ e ∈ (cywEscanLoop buflen bssCount bi).result b, e.Inside b datalen

theorem shift_lengthAt (bi : Nat) : (bssInfoLength.shift bi).result b = lengthAt b bi := by
  rw [result_shift]
  rfl

/-- An implausible length ends the walk: only the length field has been read. -/
theorem walkInside_stop {bssCount bi : Nat}
    (h : lengthAt b bi < UInt32.ofNat sizeofBssInfo ∨ lengthAt b bi > buflen) :
    WalkInside b datalen buflen (bssCount + 1) bi ↔ bi + 8 ≤ datalen := by
  unfold WalkInside
  simp only [cywEscanLoop, within_bind, result_bind, shift_lengthAt, h, if_true, within_pure, result_pure, and_true,
    List.not_mem_nil, false_implies, implies_true]
  rw [bssInfoLength, within_shift_le32]
  omega

/-- A plausible record is read and passed on, and the walk goes on behind it. -/
theorem walkInside_next {bssCount bi : Nat}
    (h : ¬(lengthAt b bi < UInt32.ofNat sizeofBssInfo ∨ lengthAt b bi > buflen)) :
    WalkInside b datalen buflen (bssCount + 1) bi ↔
      bi + (lengthAt b bi).toNat ≤ datalen ∧
        WalkInside b datalen buflen bssCount (bi + (lengthAt b bi).toNat) := by
  have hlen : sizeofBssInfo ≤ (lengthAt b bi).toNat := Nat.le_of_not_lt fun hlt => (not_or.1 h).1 hlt
  have hbss : (cywAddBss (lengthAt b bi)).Within (recBuf b bi) (lengthAt b bi).toNat := cywAddBss_within hlen
  unfold WalkInside
  simp only [cywEscanLoop, within_bind, result_bind, shift_lengthAt, h, if_false, within_pure, result_pure, and_true,
    List.forall_mem_cons]
  constructor
  · rintro ⟨⟨-, -, hw⟩, he, hr⟩
    exact ⟨he.1, hw, hr⟩
  · rintro ⟨hin, hw, hr⟩
    refine ⟨⟨?_, hbss.shift hin, hw⟩, ⟨hin, fun sp => cywParseIes_within sp (ieWindow_inside hlen)⟩, hr⟩
    rw [bssInfoLength, within_shift_le32]
    simp only [sizeofBssInfo] at hlen
    omega

/-- **The record walk** stays inside the event exactly when the records it accepts fit one behind the other. -/
theorem walkInside_iff : ∀ (bssCount bi : Nat), bi ≤ datalen →
    (WalkInside b datalen buflen bssCount bi ↔
      RecordsFit datalen bssCount bi (plausibleLens b buflen bssCount bi))
  | 0, bi, hbi => by
    simp only [WalkInside, cywEscanLoop, within_pure, result_pure, plausibleLens, RecordsFit, List.sum_nil,
      List.length_nil, List.not_mem_nil, false_implies, implies_true, and_true, true_iff]
    omega
  | bssCount + 1, bi, hbi => by
    by_cases h : lengthAt b bi < UInt32.ofNat sizeofBssInfo ∨ lengthAt b bi > buflen
    · rw [walkInside_stop h]
      simp only [plausibleLens, h, if_true, RecordsFit, List.sum_nil, List.length_nil]
      omega
    · rw [walkInside_next h]
      simp only [plausibleLens, h, if_false, RecordsFit, List.sum_cons, List.length_cons]
      constructor
      · rintro ⟨hin, hw⟩
        obtain ⟨h₁, h₂⟩ := (walkInside_iff bssCount _ hin).1 hw
        omega
      · rintro ⟨h₁, h₂⟩
        have hin : bi + (lengthAt b bi).toNat ≤ datalen := by omega
        refine ⟨hin, (walkInside_iff bssCount _ hin).2 ⟨?_, ?_⟩⟩ <;> omega

end Walk

/-! ## The whole event -/

/-- Whatever `cyw_escan_result_handler` reads of a PARTIAL event, and every range it passes to `cyw_add_bss`, lies
inside the event; the elements examined lie inside that range. -/
def EscanInside (b : Nat → UInt8) (datalen : Nat) : Prop :=
  (cywEscanResultHandler cywEStatusPartial datalen).Within b datalen ∧
    ∀ e ∈ ((cywEscanResultHandler cywEStatusPartial datalen).result b).entries, e.Inside b datalen

/-- The lengths of the records the event's walk accepts. -/
def escanLens (b : Nat → UInt8) (datalen : Nat) : List Nat :=
  plausibleLens b (escanClamp (escanBuflen.result b) datalen) (escanBssCount.result b).toNat escanBssInfo

/-- The event is too short to be looked at, or the records it announces fit behind its 12-byte header. -/
def EscanFits (b : Nat → UInt8) (datalen : Nat) : Prop :=
  datalen < sizeofEscanResult ∨
    RecordsFit datalen (escanBssCount.result b).toNat escanBssInfo (escanLens b datalen)

/-- **Scan results are read only inside the event** exactly when it is shorter than `cyw_escan_result_le` or the
records with plausible lengths, summed up behind the header, fit in it, with the length field of the next one if
more are announced. -/
theorem escan_inside_iff (b : Nat → UInt8) (datalen : Nat) : EscanInside b datalen ↔ EscanFits b datalen := by
  unfold EscanInside EscanFits cywEscanResultHandler
  by_cases hlen : datalen < sizeofEscanResult
  · simp [hlen, EscanOutcome.entries]
  have hlen' : 140 ≤ datalen := Nat.le_of_not_lt hlen
  have hbuf : escanBuflen.Within b datalen := within_le32.2 (by omega)
  have hcount : escanBssCount.Within b datalen := within_le16.2 (by omega)
  by_cases h0 : escanBssCount.result b = 0
  · have hz : (escanBssCount.result b).toNat = 0 := by rw [h0]; rfl
    simp [hlen, hbuf, hcount, h0, EscanOutcome.entries, RecordsFit, escanLens, plausibleLens, escanBssInfo]
    omega
  · have hwalk := @walkInside_iff b datalen (escanClamp (escanBuflen.result b) datalen)
      (escanBssCount.result b).toNat escanBssInfo (Nat.le_trans (by decide) hlen')
    simp only [hlen, false_or, ne_eq, not_true, if_false, within_bind, hbuf, hcount, h0, within_pure, result_bind,
      result_pure, EscanOutcome.entries, true_and, and_true]
    exact hwalk

/-- An event of 140 bytes that announces one record, of 140 bytes. -/
def longRecordEvent : Nat → UInt8 := fun i => if i = 0 then 140 else if i = 10 then 1 else if i = 16 then 140 else 0

theorem longRecordEvent_added : ∃ report,
    (cywEscanResultHandler cywEStatusPartial 140).result longRecordEvent = .added [⟨12, 140, report⟩] := by
  have hbuf : escanClamp (escanBuflen.result longRecordEvent) 140 = 140 := by decide
  have hcount : escanBssCount.result longRecordEvent = 1 := by decide
  have hlen : lengthAt longRecordEvent escanBssInfo = 140 := by decide
  have hplausible : ¬((140 : UInt32) < UInt32.ofNat sizeofBssInfo ∨ (140 : UInt32) > 140) := by decide
  refine ⟨((cywAddBss 140).shift escanBssInfo).result longRecordEvent, ?_⟩
  simp only [cywEscanResultHandler, ne_eq, not_true, if_false, show ¬140 < sizeofEscanResult by decide, result_bind,
    hcount, show ¬(1 : UInt16) = 0 by decide, hbuf, show (1 : UInt16).toNat = 0 + 1 by decide, cywEscanLoop,
    shift_lengthAt, hlen, hplausible, result_pure]
  rfl

/-- The record's length is at most `buflen`, so the 140 bytes from offset 12 on are passed to `cyw_add_bss`: the last
12 lie behind the event. -/
theorem escan_outside :
    (∃ report, (cywEscanResultHandler cywEStatusPartial 140).result longRecordEvent = .added [⟨12, 140, report⟩]) ∧
      ¬EscanInside longRecordEvent 140 := by
  refine ⟨longRecordEvent_added, fun h => ?_⟩
  obtain ⟨report, hadd⟩ := longRecordEvent_added
  have hin := h.2 ⟨12, 140, report⟩ (by rw [hadd]; exact List.mem_singleton_self _)
  exact absurd hin.1 (show ¬12 + (140 : UInt32).toNat ≤ 140 by decide)

end Cyw
