import Rpi5Modules.Cyw.Escan
import Rpi5Modules.Lib.Tlv

/-!
# Element chains

`cyw_parse_ies` walks the complete elements in front of the end of what it is given, and keeps the last one of each kind
(`parse_ies_spec`).
-/

namespace Cyw

open BufProg Tlv

/-! ## Kinds of elements -/

section Kinds

variable (b : Nat → UInt8)

/-- The element at `p` has the given id. -/
def hasId (id : UInt8) (p : Nat) : Bool := b p == id

/-- An SSID element that is not empty. -/
def isSsid (p : Nat) : Bool := hasId b elemidSsid p && decide (0 < b (p + 1))

/-- A vendor element of at least 4 bytes that starts with `00 50 f2` and the type. -/
def isVendor (type : UInt8) (p : Nat) : Bool :=
  hasId b elemidVendor p && decide (4 ≤ b (p + 1)) &&
    (b (p + 2) == 0x00 && b (p + 3) == 0x50 && b (p + 4) == 0xf2 && b (p + 5) == type)

/-- A pointer to the last of the elements that `P` accepts; without one it keeps its value. -/
def lastOr (P : Nat → Bool) (ps : List Nat) (old : IePtr) : IePtr := (lastOf P ps).elim old .chain

/-- The element pointers after the elements `ps`. -/
def afterElems (sp : ScanParams) (ps : List Nat) : ScanParams :=
  { sp with
    ssid := lastOr (isSsid b) ps sp.ssid
    rates := lastOr (hasId b elemidRates) ps sp.rates
    xrates := lastOr (hasId b elemidXrates) ps sp.xrates
    country := lastOr (hasId b elemidCountry) ps sp.country
    rsn := lastOr (hasId b elemidRsn) ps sp.rsn
    htcap := lastOr (hasId b elemidHtcap) ps sp.htcap
    htinfo := lastOr (hasId b elemidHtinfo) ps sp.htinfo
    wpa := lastOr (isVendor b 0x01) ps sp.wpa
    wme := lastOr (isVendor b 0x02) ps sp.wme }

end Kinds

section Walk

variable {b : Nat → UInt8} {sp : ScanParams} {p stop : Nat} {ps : List Nat}

theorem lastOr_cons (P : Nat → Bool) (p : Nat) (ps : List Nat) (old : IePtr) :
    lastOr P (p :: ps) old = lastOr P ps (if P p = true then .chain p else old) := by
  unfold lastOr
  rw [lastOf_cons]
  cases lastOf P ps with
  | some e => rfl
  | none =>
    by_cases h : P p = true
    · rw [if_pos h, if_pos h]
      rfl
    · rw [if_neg h, if_neg h]
      rfl

/-- Element by element. -/
theorem afterElems_cons (sp : ScanParams) (p : Nat) (ps : List Nat) :
    afterElems b sp (p :: ps) = afterElems b (afterElems b sp [p]) ps := by
  simp only [afterElems, lastOr_cons]
  rfl

theorem vendorIs_iff (type : UInt8) :
    (vendorIs (b (p + 1)) p type).result b = true ↔ 4 ≤ b (p + 1) ∧
      (b (p + 2) = 0x00 ∧ b (p + 3) = 0x50 ∧ b (p + 4) = 0xf2 ∧ b (p + 5) = type) := by
  unfold vendorIs
  by_cases h : b (p + 1) ≥ 4
  · rw [if_pos h, result_eqBytes]
    simp [List.range'_succ, ge_iff_le.1 h]
  · rw [if_neg h]
    exact iff_of_false Bool.false_ne_true fun h' => h h'.1

theorem vendorIs_eq (type : UInt8) (h : hasId b elemidVendor p = true) :
    (vendorIs (b (p + 1)) p type).result b = isVendor b type p := by
  rw [Bool.eq_iff_iff, vendorIs_iff, isVendor, h]
  simp [and_assoc]

theorem lastOr_single (P : Nat → Bool) (old : IePtr) : lastOr P [p] old = if P p = true then .chain p else old :=
  lastOr_cons P p [] old

/-- A vendor element is tested for both types. -/
theorem parseIe_vendor (sp : ScanParams) (h : hasId b elemidVendor p = true) :
    (parseIe sp elemidVendor (b (p + 1)) p).result b =
      { sp with wpa := lastOr (isVendor b 0x01) [p] sp.wpa, wme := lastOr (isVendor b 0x02) [p] sp.wme } := by
  have hparse : parseIe sp elemidVendor (b (p + 1)) p = (do
      let wpa ← vendorIs (b (p + 1)) p 0x01
      let sp := if wpa then { sp with wpa := .chain p } else sp
      let wme ← vendorIs (b (p + 1)) p 0x02
      pure (if wme then { sp with wme := .chain p } else sp)) := rfl
  rw [hparse]
  simp only [result_bind, vendorIs_eq _ h, result_pure, lastOr_single]
  cases isVendor b 0x01 p <;> cases isVendor b 0x02 p <;> rfl

/-- **One element**: the `switch` keeps it under its kind, and leaves the other pointers. -/
theorem parseIe_result (sp : ScanParams) (p : Nat) :
    (parseIe sp (b p) (b (p + 1)) p).result b = afterElems b sp [p] := by
  by_cases hv : b p = elemidVendor
  · have hvendor : hasId b elemidVendor p = true := beq_iff_eq.2 hv
    have hother : ∀ id, id ≠ elemidVendor → hasId b id p = false := by
      intro id hne
      rw [hasId, hv, beq_eq_false_iff_ne]
      exact hne.symm
    rw [hv, parseIe_vendor sp hvendor]
    simp [afterElems, lastOr_single, isSsid, hother elemidSsid (by decide), hother elemidRates (by decide),
      hother elemidXrates (by decide), hother elemidCountry (by decide), hother elemidRsn (by decide),
      hother elemidHtcap (by decide), hother elemidHtinfo (by decide)]
  have hvendor : ∀ type, isVendor b type p = false := by
    intro type
    rw [isVendor, hasId, beq_eq_false_iff_ne.2 hv]
    rfl
  -- the ids are distinct, so one branch of the `switch` is taken
  simp only [parseIe, afterElems, lastOr_single, isSsid, hvendor, hasId, hv, elemidSsid, elemidRates, elemidXrates,
    elemidCountry, elemidRsn, elemidHtcap, elemidHtinfo]
  by_cases h : b p = 0
  · by_cases hl : 0 < b (p + 1)
    · simp [h, hl]
    · simp [h, hl]
  by_cases h : b p = 1
  · simp [h]
  by_cases h : b p = 50
  · simp [h]
  by_cases h : b p = 7
  · simp [h]
  by_cases h : b p = 48
  · simp [h]
  by_cases h : b p = 45
  · simp [h]
  by_cases h : b p = 61
  · simp [h]
  · simp [*]

/-! ## The walk -/

/-- The loop keeps the complete elements before `endp`, and ends behind the last of them. -/
theorem parseIesLoop_result (sp : ScanParams) (p endp : Nat) :
    (cywParseIesLoop sp p endp p).result b = (afterElems b sp (elems b p endp), chainEnd b p endp) := by
  rw [cywParseIesLoop]
  by_cases hp : p + 2 ≤ endp
  · rw [if_pos hp, result_bind, result_byte, result_bind, result_byte]
    by_cases hlen : p + 2 + (b (p + 1)).toNat > endp
    · have hnext : ¬next b p ≤ endp := Nat.not_le.2 hlen
      rw [if_pos hlen, elems_truncated hnext, chainEnd_truncated hnext]
      rfl
    · have hnext : next b p ≤ endp := Nat.le_of_not_lt hlen
      rw [if_neg hlen, result_bind, parseIe_result, elems_complete hnext, chainEnd_complete hnext,
        afterElems_cons sp p (elems b (next b p) endp)]
      exact parseIesLoop_result (afterElems b sp [p]) (next b p) endp
  · have hnext : ¬next b p ≤ endp := by
      unfold next
      omega
    rw [if_neg hp, elems_truncated hnext, chainEnd_truncated hnext]
    rfl
termination_by endp - p
decreasing_by
  have := lt_next b p
  omega

theorem parseIes_result (sp : ScanParams) (ie : Nat) (ieLen : UInt16) :
    (cywParseIes sp ie ieLen).result b =
      { afterElems b sp (elems b ie (ie + ieLen.toNat)) with
        ies := .chain ie, iesLen := UInt16.ofNat (chainEnd b ie (ie + ieLen.toNat) - ie) } := by
  rw [cywParseIes, result_bind, parseIesLoop_result]
  rfl

/-- **The element walk** ends, and reads nothing behind what it is given. It goes over the longest chain of complete
elements there: `ies_len` is its length, each pointer the last element of its kind in it, or what it was before. -/
theorem parse_ies_spec (b : Nat → UInt8) (sp : ScanParams) (ie : Nat) (ieLen : UInt16) :
    ∃ ps q, Chain b ie ps q ∧ q ≤ ie + ieLen.toNat ∧
      (∀ ps' q', Chain b ie ps' q' → q' ≤ ie + ieLen.toNat → q' ≤ q) ∧ (∀ p ∈ ps, ie ≤ p ∧ next b p ≤ q) ∧
      (cywParseIes sp ie ieLen).result b =
        { afterElems b sp ps with ies := .chain ie, iesLen := UInt16.ofNat (q - ie) } ∧
      ((cywParseIes sp ie ieLen).result b).iesLen.toNat = q - ie ∧
      (cywParseIes sp ie ieLen).Within b (ie + ieLen.toNat) := by
  have hchain := chain_elems b ie (ie + ieLen.toNat)
  have hle : chainEnd b ie (ie + ieLen.toNat) ≤ ie + ieLen.toNat := chainEnd_le b (Nat.le_add_right _ _)
  refine ⟨_, _, hchain, hle, fun ps' q' h hq => chainEnd_longest h hq, fun p hp => hchain.inside hp,
    parseIes_result sp ie ieLen, ?_, cywParseIes_within sp (Nat.le_refl _)⟩
  have hlt := ieLen.toNat_lt
  rw [parseIes_result]
  show (chainEnd b ie (ie + ieLen.toNat) - ie) % 2 ^ 16 = _
  omega

end Walk

end Cyw
