import Rpi5Modules.Cyw.IeChain

/-!
# Element sizes of a scan result

net80211 copies the SSID element it is given into a buffer for 32 bytes, and takes at most 15 rates from a rates
element. `cyw_add_bss` cuts the SSID of the record's fixed part to 32 bytes, but the elements of the chain replace it
and the rates as they are: the sizes are respected exactly if the last element of each of these kinds respects them
(`addBss_sizes_iff`).
-/

namespace Cyw

open BufProg Tlv

/-- `cyw_add_bss` up to its call of `ieee80211_add_scan`, if it comes to it. `vap` says that there is a vap,
`findScanChannel` whether `cyw_find_scan_channel` finds the channel. -/
def cywAddBssScan (vap : Bool) (findScanChannel : Int → Bool) (biLen : UInt32) : BufProg (Option BssReport) := do
  let report ← cywAddBss biLen
  if report.sp.rates = .null then pure none
  else if !vap then pure none
  else if !findScanChannel report.chan then pure none
  else pure (some report)

section Sizes

variable (b : Nat → UInt8)

/-- The length byte of the element is at most `n`, if there is an element. -/
def IePtr.AtMost (n : Nat) : IePtr → Prop
  | .null => True
  | .own ie => (ie.getD 1 0).toNat ≤ n
  | .chain p => (b (p + 1)).toNat ≤ n

/-- What net80211 has room for. -/
structure ScanParams.SizesOk (sp : ScanParams) : Prop where
  ssid : sp.ssid.AtMost b 32
  rates : sp.rates.AtMost b 15
  xrates : sp.xrates.AtMost b 15

/-- The last element that `P` accepts, if there is one, has at most `n` bytes. -/
def LastAtMost (P : Nat → Bool) (n : Nat) (ps : List Nat) : Prop :=
  ∀ p, lastOf P ps = some p → (b (p + 1)).toNat ≤ n

/-- Among the elements `ps`, the last SSID that is not empty, the last rates and the last extended rates have at most
32, 15 and 15 bytes. -/
structure ElemSizesOk (ps : List Nat) : Prop where
  ssid : LastAtMost b (isSsid b) 32 ps
  rates : LastAtMost b (hasId b elemidRates) 15 ps
  xrates : LastAtMost b (hasId b elemidXrates) 15 ps

/-- The complete elements in the window `cyw_add_bss` looks at. -/
def windowElems (biLen : UInt32) : List Nat :=
  let w := (ieWindow biLen).result b
  elems b w.1.toNat (w.1.toNat + w.2.toNat)

end Sizes

section Report

variable {b : Nat → UInt8} {biLen : UInt32} {vap : Bool} {findScanChannel : Int → Bool} {report : BssReport}

/-- A pointer that starts out small stays so exactly if the last element it is set to is small. -/
theorem lastOr_atMost {P : Nat → Bool} {n : Nat} {ps : List Nat} {old : IePtr} (hold : old.AtMost b n) :
    (lastOr P ps old).AtMost b n ↔ LastAtMost b P n ps := by
  unfold lastOr LastAtMost
  cases lastOf P ps with
  | none => exact iff_of_true hold fun _ h => by cases h
  | some p =>
    constructor
    · intro h p' hp'
      cases hp'
      exact h
    · intro h
      exact h p rfl

theorem afterElems_sizes {sp : ScanParams} (h : sp.SizesOk b) (ps : List Nat) :
    (afterElems b sp ps).SizesOk b ↔ ElemSizesOk b ps := by
  constructor
  · intro h'
    exact ⟨(lastOr_atMost h.ssid).1 h'.ssid, (lastOr_atMost h.rates).1 h'.rates, (lastOr_atMost h.xrates).1 h'.xrates⟩
  · intro h'
    exact ⟨(lastOr_atMost h.ssid).2 h'.ssid, (lastOr_atMost h.rates).2 h'.rates, (lastOr_atMost h.xrates).2 h'.xrates⟩

/-- The parameters before the walk over the elements, and what becomes of them. -/
theorem addBss_sp (b : Nat → UInt8) (biLen : UInt32) : ∃ sp : ScanParams, sp.SizesOk b ∧ sp.rates ≠ .null ∧
    ((cywAddBss biLen).result b).sp = (if ((ieWindow biLen).result b).2 > 0 then
      cywParseIes sp ((ieWindow biLen).result b).1.toNat ((ieWindow biLen).result b).2 else pure sp).result b := by
  let n : UInt8 := if bssInfoSsidLen.result b > 32 then 32 else bssInfoSsidLen.result b
  let chan := cywChanspecToChannel (bssInfoChanspec.result b)
  let sp : ScanParams :=
    { ssid := .own (elemidSsid :: n :: (bytes 19 n.toNat).result b)
      rates := .own (if chan ≤ 14 then cywRates2g else cywRates5g)
      xrates := .null, country := .null, rsn := .null, htcap := .null, htinfo := .null, wpa := .null, wme := .null
      ies := .null, iesLen := 0 }
  have hn : n.toNat ≤ 32 := by
    show (if bssInfoSsidLen.result b > 32 then (32 : UInt8) else bssInfoSsidLen.result b).toNat ≤ 32
    split
    · exact Nat.le_refl 32
    · next h => exact Nat.le_of_not_lt h
  have hrates : IePtr.AtMost b 15 (.own (if chan ≤ 14 then cywRates2g else cywRates5g)) := by
    split
    · exact show 8 ≤ 15 by decide
    · exact show 8 ≤ 15 by decide
  have hne : sp.rates ≠ .null := fun h => by cases h
  refine ⟨sp, ⟨hn, hrates, trivial⟩, hne, ?_⟩
  simp only [cywAddBss, result_bind]
  split
  · rw [result_bind]
    rfl
  · rfl

/-- What `cyw_add_bss` hands on is what it makes of the record. -/
theorem addBssScan_some (h : (cywAddBssScan vap findScanChannel biLen).result b = some report) :
    report = (cywAddBss biLen).result b := by
  rw [cywAddBssScan, result_bind] at h
  split at h
  · cases h
  · split at h
    · cases h
    · split at h
      · cases h
      · cases h
        rfl

theorem lastOr_ne_null {P : Nat → Bool} {ps : List Nat} {old : IePtr} (h : old ≠ .null) : lastOr P ps old ≠ .null := by
  unfold lastOr
  cases lastOf P ps with
  | none => exact h
  | some p => exact fun h => by cases h

/-- With a vap and a channel every record is handed on: the rates are never NULL. -/
theorem addBssScan_accepts (h : findScanChannel ((cywAddBss biLen).result b).chan = true) :
    (cywAddBssScan true findScanChannel biLen).result b = some ((cywAddBss biLen).result b) := by
  have hrates : ((cywAddBss biLen).result b).sp.rates ≠ .null := by
    obtain ⟨sp, -, hne, hreport⟩ := addBss_sp b biLen
    rw [hreport]
    split
    · rw [parseIes_result]
      exact lastOr_ne_null hne
    · exact hne
  simp only [cywAddBssScan, result_bind, hrates, h, if_false, Bool.not_true, Bool.false_eq_true, result_pure]

theorem addBss_sizes (b : Nat → UInt8) (biLen : UInt32) :
    ((cywAddBss biLen).result b).sp.SizesOk b ↔ ElemSizesOk b (windowElems b biLen) := by
  obtain ⟨sp, hsp, -, hreport⟩ := addBss_sp b biLen
  have hafter := afterElems_sizes hsp (windowElems b biLen)
  rw [hreport]
  split
  · rw [parseIes_result]
    constructor
    · intro h
      exact hafter.1 ⟨h.ssid, h.rates, h.xrates⟩
    · intro h
      have h' := hafter.2 h
      exact ⟨h'.ssid, h'.rates, h'.xrates⟩
  · next hlen =>
    have hnone : windowElems b biLen = [] := by
      apply elems_truncated
      have hzero : ((ieWindow biLen).result b).2.toNat = 0 := Nat.eq_zero_of_not_pos hlen
      rw [hzero]
      exact Nat.not_le.2 (lt_next b _)
    rw [hnone] at hafter ⊢
    exact hafter

/-- **The sizes of what reaches net80211** are respected exactly if, among the complete elements of the record, the last
SSID that is not empty has at most 32 bytes and the last rates and extended rates have at most 15. -/
theorem addBss_sizes_iff (h : (cywAddBssScan vap findScanChannel biLen).result b = some report) :
    report.sp.SizesOk b ↔ ElemSizesOk b (windowElems b biLen) := by
  rw [addBssScan_some h]
  exact addBss_sizes b biLen

/-- A record of 163 bytes whose only element, at 128, is an SSID element of 33 bytes. -/
def longSsidBss : Nat → UInt8 := fun i => if i = 116 then 128 else if i = 129 then 33 else 0

theorem longSsid_elems : windowElems longSsidBss 163 = [128] := by
  have hwindow : (ieWindow 163).result longSsidBss = (128, 35) := by decide
  have hfirst : next longSsidBss 128 = 163 := by decide
  have hsecond : next longSsidBss 163 = 165 := by decide
  have h : elems longSsidBss 128 163 = [128] := by
    rw [elems_complete (by omega), hfirst, elems_truncated (by omega)]
  unfold windowElems
  rw [hwindow]
  exact h

theorem addBss_sizes_iff_longSsid : ((cywAddBss 163).result longSsidBss).sp.SizesOk longSsidBss ↔
    ElemSizesOk longSsidBss (windowElems longSsidBss 163) := by
  have h : (cywAddBssScan true (fun _ => true) 163).result longSsidBss = some ((cywAddBss 163).result longSsidBss) :=
    addBssScan_accepts rfl
  exact addBss_sizes_iff h

/-- The SSID element of 33 bytes replaces the one made from the fixed part, and is handed to net80211. -/
theorem addBss_longSsid : ∃ report, (cywAddBssScan true (fun _ => true) 163).result longSsidBss = some report ∧
    ¬report.sp.SizesOk longSsidBss := by
  refine ⟨_, addBssScan_accepts rfl, fun h => ?_⟩
  have hsize := ((addBss_sizes longSsidBss 163).1 h).ssid
  rw [longSsid_elems] at hsize
  exact absurd (hsize 128 (by decide)) (by decide)

end Report

end Cyw
