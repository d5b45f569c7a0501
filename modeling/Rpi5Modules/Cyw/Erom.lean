import Rpi5Modules.Cyw.FwImages
import Rpi5Modules.Lib.Search

/-!
# The enumeration ROM

`cyw_erom_find_sdio_core_base` walks the table of 32-bit descriptors that EROMPTR points to, looking for the SDIO core.
The loop over the entries has a limit of 512, the `while` that looks for the next MPORT descriptor has none. Addresses
wrap around, so it passes every word at a distance of a multiple of 4: it ends exactly if one of them is an MPORT
descriptor. Without any, the scan ends exactly if no core it comes to counts master ports (`erom_returns_iff`).
-/

namespace Cyw

open Search

/-! ## Layout -/

def chipcEromptr : UInt32 := 0xfc
def bcmaEromTableEof : UInt32 := 0xf
def bcmaEromEntryIsvalid : UInt32 := 0x1
def bcmaEromEntryTypeMask : UInt32 := 0x6
def bcmaEromEntryTypeCore : UInt32 := 0x0
def bcmaEromEntryTypeMport : UInt32 := 0x2
def bcmaEromEntryTypeRegion : UInt32 := 0x4
def bcmaEromCoreaIdMask : UInt32 := 0x000fff00
def bcmaEromCoreaIdShift : UInt32 := 8
def bcmaEromCorebNumMpMask : UInt32 := 0x000001f0
def bcmaEromCorebNumMpShift : UInt32 := 4
def bcmaEromRegionBaseMask : UInt32 := 0xfffff000
def bcmaEromRegionPortMask : UInt32 := 0x00000f00
def bcmaEromRegionPortShift : UInt32 := 8
def bcmaEromRegionTypeMask : UInt32 := 0x000000c0
def bcmaEromRegionTypeShift : UInt32 := 6
def bcmaEromRegionTypeDevice : UInt8 := 0
def bcmaEromRegionSizeMask : UInt32 := 0x00000030
def bcmaEromRegionSizeShift : UInt32 := 4
def bcmaEromRegionSizeOther : UInt8 := 3
def bhndCoreidSdiod : UInt16 := 0x829

/-! ## Entries -/

def isEof (entry : UInt32) : Bool := entry &&& 0xf == bcmaEromTableEof

def isValid (entry : UInt32) : Bool := entry &&& bcmaEromEntryIsvalid != 0

def entryType (entry : UInt32) : UInt32 := entry &&& bcmaEromEntryTypeMask

def isCore (entry : UInt32) : Bool := isValid entry && entryType entry == bcmaEromEntryTypeCore

def isMport (entry : UInt32) : Bool := isValid entry && entryType entry == bcmaEromEntryTypeMport

def isRegion (entry : UInt32) : Bool := isValid entry && entryType entry == bcmaEromEntryTypeRegion

/-- The core id in a CORE A word. -/
def corid (entry : UInt32) : UInt16 := ((entry &&& bcmaEromCoreaIdMask) >>> bcmaEromCoreaIdShift).toUInt16

/-- The number of master ports in a CORE B word. -/
def nmp (coreb : UInt32) : UInt8 := ((coreb &&& bcmaEromCorebNumMpMask) >>> bcmaEromCorebNumMpShift).toUInt8

def regionType (entry : UInt32) : UInt8 := ((entry &&& bcmaEromRegionTypeMask) >>> bcmaEromRegionTypeShift).toUInt8

def regionPort (entry : UInt32) : UInt8 := ((entry &&& bcmaEromRegionPortMask) >>> bcmaEromRegionPortShift).toUInt8

def regionSize (entry : UInt32) : UInt8 := ((entry &&& bcmaEromRegionSizeMask) >>> bcmaEromRegionSizeShift).toUInt8

def regionBase (entry : UInt32) : UInt32 := entry &&& bcmaEromRegionBaseMask

/-- A region of device registers at port 0. -/
def isDevice0 (entry : UInt32) : Bool := regionType entry == bcmaEromRegionTypeDevice && regionPort entry == 0

/-! ## `cyw_erom_find_sdio_core_base` -/

section Scan

variable (rom : UInt32 → UInt32) (fuel : Nat)

/-- One round of the loop over the master ports: it reads words up to the next MPORT descriptor. `fuel` bounds the
inner `while`, which has no bound of its own; the result is the address behind the descriptor and the number of
reads. -/
def skipMport (eromAddr : UInt32) : Option (UInt32 × Nat) :=
  (search (· + 4) (fun a => isMport (rom a)) fuel eromAddr).map fun r => (r.1 + 4, r.2)

/-- The loop over the master ports, with `n` of them left; `reads` counts the reads. -/
def skipMports : (n : Nat) → (eromAddr : UInt32) → (reads : Nat) → Option (UInt32 × Nat)
  | 0, eromAddr, reads => some (eromAddr, reads)
  | n + 1, eromAddr, reads =>
    match skipMport rom fuel eromAddr with
    | none => none
    | some (eromAddr, k) => skipMports n eromAddr (reads + k)

/-- The loop over the entries: the base it returns and the number of reads. -/
def eromLoop : (maxEntries : Nat) → (eromAddr : UInt32) → (inSdiod : Bool) → (reads : Nat) → Option (UInt32 × Nat)
  | 0, _, _, reads => some (0, reads)
  | maxEntries + 1, eromAddr, inSdiod, reads =>
    let entry := rom eromAddr
    let eromAddr := eromAddr + 4
    let reads := reads + 1
    if isEof entry then some (0, reads)
    else if !isValid entry then eromLoop maxEntries eromAddr inSdiod reads
    else if entryType entry = bcmaEromEntryTypeCore then
      let coreb := rom eromAddr
      match skipMports rom fuel (nmp coreb).toNat (eromAddr + 4) (reads + 1) with
      | none => none
      | some (eromAddr, reads) => eromLoop maxEntries eromAddr (corid entry == bhndCoreidSdiod) reads
    else if entryType entry = bcmaEromEntryTypeRegion then
      let eromAddr := if regionSize entry = bcmaEromRegionSizeOther then eromAddr + 4 else eromAddr
      if inSdiod && isDevice0 entry then some (regionBase entry, reads)
      else eromLoop maxEntries eromAddr inSdiod reads
    else eromLoop maxEntries eromAddr inSdiod reads

/-- `cyw_erom_find_sdio_core_base(sc)`: `rom` is what `cyw_bp_read32` returns for each address. The result is the base
and the number of reads; `none` says that a `while` needs more than `fuel` rounds. -/
def cywEromFindSdioCoreBase : Option (UInt32 × Nat) :=
  let eromBase := rom (cywSiEnumBase + chipcEromptr)
  if eromBase = 0 ∨ eromBase = 0xffffffff then some (0, 1) else eromLoop rom fuel 512 eromBase false 1

end Scan

/-! ## One entry -/

section Entry

variable {rom : UInt32 → UInt32} {fuel n reads : Nat} {a e : UInt32} {sd : Bool}

/-- The end-of-table mark has a type of its own. -/
theorem entryType_of_isEof (h : isEof e = true) : entryType e = 6 := by
  have he : e &&& 0xf = 0xf := eq_of_beq h
  calc e &&& 6 = e &&& 0xf &&& 6 := by rw [UInt32.and_assoc]; rfl
    _ = 6 := by rw [he]; rfl

theorem isCore_iff : isCore e = true ↔ isValid e = true ∧ entryType e = bcmaEromEntryTypeCore := by
  simp [isCore]

theorem isRegion_iff : isRegion e = true ↔ isValid e = true ∧ entryType e = bcmaEromEntryTypeRegion := by
  simp [isRegion]

theorem isEof_of_isCore (h : isCore e = true) : isEof e = false := by
  apply Bool.eq_false_iff.2
  intro he
  have htype := (isCore_iff.1 h).2
  rw [entryType_of_isEof he] at htype
  exact absurd htype (by decide)

theorem isEof_of_isRegion (h : isRegion e = true) : isEof e = false := by
  apply Bool.eq_false_iff.2
  intro he
  have htype := (isRegion_iff.1 h).2
  rw [entryType_of_isEof he] at htype
  exact absurd htype (by decide)

theorem eromLoop_eof (h : isEof (rom a) = true) :
    eromLoop rom fuel (n + 1) a sd reads = some (0, reads + 1) := by
  simp only [eromLoop, h, if_true]

theorem eromLoop_core (h : isCore (rom a) = true) :
    eromLoop rom fuel (n + 1) a sd reads =
      (skipMports rom fuel (nmp (rom (a + 4))).toNat (a + 4 + 4) (reads + 2)).bind fun r =>
        eromLoop rom fuel n r.1 (corid (rom a) == bhndCoreidSdiod) r.2 := by
  obtain ⟨hv, ht⟩ := isCore_iff.1 h
  simp only [eromLoop, isEof_of_isCore h, hv, ht, Bool.false_eq_true, Bool.not_true, if_false, if_true]
  cases skipMports rom fuel (nmp (rom (a + 4))).toNat (a + 4 + 4) (reads + 2) with
  | none => rfl
  | some r => rfl

/-- The address behind a REGION word and its size word. -/
def regionEnd (e a : UInt32) : UInt32 := if regionSize e = bcmaEromRegionSizeOther then a + 4 + 4 else a + 4

theorem eromLoop_region (h : isRegion (rom a) = true) :
    eromLoop rom fuel (n + 1) a sd reads =
      if (sd && isDevice0 (rom a)) = true then some (regionBase (rom a), reads + 1)
      else eromLoop rom fuel n (regionEnd (rom a) a) sd (reads + 1) := by
  obtain ⟨hv, ht⟩ := isRegion_iff.1 h
  have hne : ¬bcmaEromEntryTypeRegion = bcmaEromEntryTypeCore := by decide
  simp only [eromLoop, isEof_of_isRegion h, hv, ht, hne, Bool.false_eq_true, Bool.not_true, if_false, if_true,
    regionEnd]

/-- Any other word is stepped over. -/
theorem eromLoop_other (he : isEof (rom a) = false) (hc : isCore (rom a) = false) (hr : isRegion (rom a) = false) :
    eromLoop rom fuel (n + 1) a sd reads = eromLoop rom fuel n (a + 4) sd (reads + 1) := by
  simp only [eromLoop, he, Bool.false_eq_true, if_false]
  cases hv : isValid (rom a) with
  | false => simp only [Bool.not_false, if_true]
  | true =>
    have hc' : ¬entryType (rom a) = bcmaEromEntryTypeCore := fun ht =>
      Bool.eq_false_iff.1 hc (isCore_iff.2 ⟨hv, ht⟩)
    have hr' : ¬entryType (rom a) = bcmaEromEntryTypeRegion := fun ht =>
      Bool.eq_false_iff.1 hr (isRegion_iff.2 ⟨hv, ht⟩)
    simp only [Bool.not_true, Bool.false_eq_true, hc', hr', if_false]

end Entry

/-! ## The search for an MPORT descriptor -/

section Mport

variable {rom : UInt32 → UInt32} {fuel n reads : Nat} {a b : UInt32} {sd : Bool}

/-- Some word that the address `a` comes to, stepping by 4, is an MPORT descriptor. -/
def HasMport (rom : UInt32 → UInt32) (a : UInt32) : Prop := ∃ b : UInt32, b.toNat % 4 = a.toNat % 4 ∧ isMport (rom b)

/-- Steps of 4 around the address space. -/
def mportRounds : Nat := 1073741824

theorem toNat_add_four (a : UInt32) : (a + 4).toNat % 4 = a.toNat % 4 := by
  rw [UInt32.toNat_add]
  show (a.toNat + 4) % 2 ^ 32 % 4 = _
  omega

theorem toNat_iterate (a : UInt32) (k : Nat) : ((· + 4)^[k] a).toNat = (a.toNat + 4 * k) % 2 ^ 32 := by
  induction k generalizing a with
  | zero =>
    have := a.toNat_lt
    show a.toNat = _
    omega
  | succ k ih =>
    rw [Function.iterate_succ_apply, ih, UInt32.toNat_add]
    show ((a.toNat + 4) % 2 ^ 32 + 4 * k) % 2 ^ 32 = _
    omega

/-- Every word at a distance of a multiple of 4 is come to in one round. -/
theorem exists_iterate (h : b.toNat % 4 = a.toNat % 4) : ∃ k, k < mportRounds ∧ (· + 4)^[k] a = b := by
  have ha := a.toNat_lt
  have hb := b.toNat_lt
  refine ⟨(b.toNat + 2 ^ 32 - a.toNat) % 2 ^ 32 / 4, ?_, ?_⟩
  · unfold mportRounds
    omega
  · apply UInt32.toNat_inj.1
    rw [toNat_iterate]
    omega

theorem HasMport.congr (h : b.toNat % 4 = a.toNat % 4) : HasMport rom b ↔ HasMport rom a := by
  unfold HasMport
  rw [h]

theorem skipMport_some (h : HasMport rom a) :
    ∃ r, skipMport rom mportRounds a = some r ∧ r.1.toNat % 4 = a.toNat % 4 ∧ r.2 ≤ mportRounds := by
  obtain ⟨b, hb, hm⟩ := h
  obtain ⟨k, hk, rfl⟩ := exists_iterate hb
  obtain ⟨j, hj, hs⟩ := search_of_iterate (f := (· + 4)) (p := fun a => isMport (rom a)) hm hk
  refine ⟨((· + 4)^[j] a + 4, j + 1), by rw [skipMport, hs]; rfl, ?_, by omega⟩
  rw [toNat_add_four, toNat_iterate]
  omega

theorem skipMport_none (h : ¬HasMport rom a) (fuel : Nat) : skipMport rom fuel a = none := by
  have hnone : search (· + 4) (fun a => isMport (rom a)) fuel a = none := by
    refine search_eq_none (fun k hk => h ⟨_, ?_, hk⟩) fuel
    rw [toNat_iterate]
    omega
  rw [skipMport, hnone]
  rfl

theorem skipMports_some (h : HasMport rom a) (n reads : Nat) :
    ∃ r, skipMports rom mportRounds n a reads = some r ∧ r.1.toNat % 4 = a.toNat % 4 ∧
      r.2 ≤ reads + n * mportRounds := by
  induction n generalizing a reads with
  | zero => exact ⟨_, rfl, rfl, by omega⟩
  | succ n ih =>
    obtain ⟨⟨a', k⟩, hs, ha, hk⟩ := skipMport_some h
    obtain ⟨r, hr, ha', hle⟩ := ih ((HasMport.congr ha).2 h) (reads + k)
    refine ⟨r, by rw [skipMports, hs]; exact hr, ha'.trans ha, ?_⟩
    calc r.2 ≤ reads + k + n * mportRounds := hle
      _ ≤ reads + (n + 1) * mportRounds := by rw [Nat.succ_mul]; omega

theorem skipMports_none (h : ¬HasMport rom a) (hn : n ≠ 0) (fuel reads : Nat) :
    skipMports rom fuel n a reads = none := by
  obtain ⟨m, rfl⟩ := Nat.exists_eq_succ_of_ne_zero hn
  rw [skipMports, skipMport_none h]

/-- The count of master ports is a field of 5 bits. -/
theorem nmp_le (coreb : UInt32) : (nmp coreb).toNat ≤ 31 := by
  have h : ((coreb &&& bcmaEromCorebNumMpMask) >>> bcmaEromCorebNumMpShift).toNat ≤ 31 := by
    rw [UInt32.toNat_shiftRight, UInt32.toNat_and]
    have hle : coreb.toNat &&& bcmaEromCorebNumMpMask.toNat ≤ 0x1f0 := Nat.and_le_right
    show (coreb.toNat &&& bcmaEromCorebNumMpMask.toNat) >>> 4 ≤ 31
    rw [Nat.shiftRight_eq_div_pow]
    omega
  rw [nmp, UInt32.toNat_toUInt8]
  omega

end Mport

/-! ## Termination -/

section Termination

variable {rom : UInt32 → UInt32} {fuel n m reads : Nat} {base a : UInt32} {sd : Bool}

/-- The most an entry takes: a CORE with 31 master ports. -/
def entryReadsMax : Nat := 2 + 31 * mportRounds

def eromReadsMax : Nat := 1 + 512 * entryReadsMax

theorem regionEnd_mod (e a : UInt32) : (regionEnd e a).toNat % 4 = a.toNat % 4 := by
  unfold regionEnd
  split
  · rw [toNat_add_four, toNat_add_four]
  · exact toNat_add_four a

/-- With an MPORT descriptor at hand, every search for one ends. -/
theorem eromLoop_some (h : HasMport rom a) (n : Nat) (sd : Bool) (reads : Nat) :
    ∃ r, eromLoop rom mportRounds n a sd reads = some r ∧ r.2 ≤ reads + n * entryReadsMax := by
  induction n generalizing a sd reads with
  | zero => exact ⟨_, rfl, by omega⟩
  | succ n ih =>
    have hmax : 2 ≤ entryReadsMax := by decide
    have hstep : (n + 1) * entryReadsMax = n * entryReadsMax + entryReadsMax := Nat.succ_mul n _
    by_cases he : isEof (rom a) = true
    · exact ⟨_, eromLoop_eof he, by omega⟩
    by_cases hc : isCore (rom a) = true
    · have ha : (a + 4 + 4).toNat % 4 = a.toNat % 4 := by rw [toNat_add_four, toNat_add_four]
      obtain ⟨⟨a', k⟩, hs, ha', hk⟩ := skipMports_some ((HasMport.congr ha).2 h) (nmp (rom (a + 4))).toNat (reads + 2)
      obtain ⟨r, hr, hle⟩ := ih ((HasMport.congr (ha'.trans ha)).2 h) (corid (rom a) == bhndCoreidSdiod) k
      refine ⟨r, by rw [eromLoop_core hc, hs]; exact hr, ?_⟩
      have hmp : (nmp (rom (a + 4))).toNat * mportRounds ≤ 31 * mportRounds := Nat.mul_le_mul_right _ (nmp_le _)
      have hentry : entryReadsMax = 2 + 31 * mportRounds := rfl
      omega
    by_cases hr : isRegion (rom a) = true
    · rw [eromLoop_region hr]
      split
      · exact ⟨_, rfl, by show reads + 1 ≤ _; omega⟩
      · obtain ⟨r, hr', hle⟩ := ih ((HasMport.congr (regionEnd_mod (rom a) a)).2 h) sd (reads + 1)
        exact ⟨r, hr', by omega⟩
    · rw [eromLoop_other (Bool.eq_false_iff.2 he) (Bool.eq_false_iff.2 hc) (Bool.eq_false_iff.2 hr)]
      obtain ⟨r, hr', hle⟩ := ih ((HasMport.congr (toNat_add_four a)).2 h) sd (reads + 1)
      exact ⟨r, hr', by omega⟩

/-- The entries of a table at `base` up to its end or the region sought, as long as no core counts master ports: the
`m`-th one is at `a`, and `sd` says that it belongs to the SDIO core. -/
inductive EntryAt (rom : UInt32 → UInt32) (base : UInt32) : (m : Nat) → (a : UInt32) → (sd : Bool) → Prop
  | first : EntryAt rom base 0 base false
  | core {m : Nat} {a : UInt32} {sd : Bool} : EntryAt rom base m a sd → isCore (rom a) = true →
      nmp (rom (a + 4)) = 0 → EntryAt rom base (m + 1) (a + 4 + 4) (corid (rom a) == bhndCoreidSdiod)
  | region {m : Nat} {a : UInt32} {sd : Bool} : EntryAt rom base m a sd → isRegion (rom a) = true →
      ¬(sd && isDevice0 (rom a)) = true → EntryAt rom base (m + 1) (regionEnd (rom a) a) sd
  | other {m : Nat} {a : UInt32} {sd : Bool} : EntryAt rom base m a sd → isEof (rom a) = false →
      isCore (rom a) = false → isRegion (rom a) = false → EntryAt rom base (m + 1) (a + 4) sd

/-- None of the first 512 entries is a core that counts master ports. -/
def NoMasters (rom : UInt32 → UInt32) (base : UInt32) : Prop :=
  ∀ m a sd, m < 512 → EntryAt rom base m a sd → isCore (rom a) = true → nmp (rom (a + 4)) = 0

theorem EntryAt.mod (h : EntryAt rom base m a sd) : a.toNat % 4 = base.toNat % 4 := by
  induction h with
  | first => rfl
  | core _ _ _ ih => rw [toNat_add_four, toNat_add_four, ih]
  | region _ _ _ ih => rw [regionEnd_mod, ih]
  | other _ _ _ _ ih => rw [toNat_add_four, ih]

/-- The loop comes to every entry. -/
theorem eromLoop_entry (h : EntryAt rom base m a sd) (hm : m ≤ n) (fuel : Nat) :
    ∃ reads, eromLoop rom fuel n base false 1 = eromLoop rom fuel (n - m) a sd reads := by
  induction h with
  | first => exact ⟨1, rfl⟩
  | @core m a sd hprev hc hmp ih =>
    obtain ⟨reads, hr⟩ := ih (by omega)
    have hn : n - m = n - (m + 1) + 1 := by omega
    refine ⟨reads + 2, ?_⟩
    rw [hr, hn, eromLoop_core hc, hmp]
    rfl
  | @region m a sd hprev hreg hnot ih =>
    obtain ⟨reads, hr⟩ := ih (by omega)
    have hn : n - m = n - (m + 1) + 1 := by omega
    exact ⟨reads + 1, by rw [hr, hn, eromLoop_region hreg, if_neg hnot]⟩
  | @other m a sd hprev he hc hreg ih =>
    obtain ⟨reads, hr⟩ := ih (by omega)
    have hn : n - m = n - (m + 1) + 1 := by omega
    exact ⟨reads + 1, by rw [hr, hn, eromLoop_other he hc hreg]⟩

/-- Without master ports there is nothing to search for. -/
theorem eromLoop_noMasters (hno : NoMasters rom base) (fuel : Nat) (h : EntryAt rom base m a sd) (hm : m + n = 512)
    (reads : Nat) : ∃ r, eromLoop rom fuel n a sd reads = some r ∧ r.2 ≤ reads + n * entryReadsMax := by
  induction n generalizing m a sd reads with
  | zero => exact ⟨_, rfl, by omega⟩
  | succ n ih =>
    have hmax : 2 ≤ entryReadsMax := by decide
    have hstep : (n + 1) * entryReadsMax = n * entryReadsMax + entryReadsMax := Nat.succ_mul n _
    by_cases he : isEof (rom a) = true
    · exact ⟨_, eromLoop_eof he, by omega⟩
    by_cases hc : isCore (rom a) = true
    · have hmp := hno m a sd (by omega) h hc
      obtain ⟨r, hr, hle⟩ := ih (h.core hc hmp) (by omega) (reads + 2)
      exact ⟨r, by rw [eromLoop_core hc, hmp]; exact hr, by omega⟩
    by_cases hr : isRegion (rom a) = true
    · rw [eromLoop_region hr]
      split
      · exact ⟨_, rfl, by show reads + 1 ≤ _; omega⟩
      · next hnot =>
        obtain ⟨r, hr', hle⟩ := ih (h.region hr hnot) (by omega) (reads + 1)
        exact ⟨r, hr', by omega⟩
    · have he' := Bool.eq_false_iff.2 he
      have hc' := Bool.eq_false_iff.2 hc
      have hr' := Bool.eq_false_iff.2 hr
      rw [eromLoop_other he' hc' hr']
      obtain ⟨r, hs, hle⟩ := ih (h.other he' hc' hr') (by omega) (reads + 1)
      exact ⟨r, hs, by omega⟩

/-- A core that counts master ports, and no MPORT descriptor: the search for one never ends. -/
theorem eromLoop_none (hmp : ¬HasMport rom base) (h : EntryAt rom base m a sd) (hm : m < n)
    (hc : isCore (rom a) = true) (hn : nmp (rom (a + 4)) ≠ 0) (fuel : Nat) :
    eromLoop rom fuel n base false 1 = none := by
  obtain ⟨reads, hr⟩ := eromLoop_entry h (Nat.le_of_lt hm) fuel
  have hsub : n - m = n - (m + 1) + 1 := by omega
  have hmod : (a + 4 + 4).toNat % 4 = base.toNat % 4 := by rw [toNat_add_four, toNat_add_four, h.mod]
  have hn' : (nmp (rom (a + 4))).toNat ≠ 0 := fun h0 => hn (UInt8.toNat_inj.1 h0)
  rw [hr, hsub, eromLoop_core hc, skipMports_none (fun h' => hmp ((HasMport.congr hmod).1 h')) hn']
  rfl

/-- EROMPTR. -/
def eromBase (rom : UInt32 → UInt32) : UInt32 := rom (cywSiEnumBase + chipcEromptr)

theorem erom_of_valid {rom : UInt32 → UInt32} (h : ¬(eromBase rom = 0 ∨ eromBase rom = 0xffffffff)) (fuel : Nat) :
    cywEromFindSdioCoreBase rom fuel = eromLoop rom fuel 512 (eromBase rom) false 1 := if_neg h

/-- EROMPTR is bad, or some word at a distance of a multiple of 4 from the table is an MPORT descriptor, or no core of
the table counts master ports. -/
def EromEnds (rom : UInt32 → UInt32) : Prop :=
  (eromBase rom = 0 ∨ eromBase rom = 0xffffffff) ∨ HasMport rom (eromBase rom) ∨ NoMasters rom (eromBase rom)

/-- From any other ROM it never returns. -/
theorem erom_none {rom : UInt32 → UInt32} (h : ¬EromEnds rom) (fuel : Nat) :
    cywEromFindSdioCoreBase rom fuel = none := by
  obtain ⟨hbad, h⟩ := not_or.1 h
  obtain ⟨hmp, hno⟩ := not_or.1 h
  refine Classical.byContradiction fun hs => hno fun m a sd hm hentry hc => ?_
  refine Classical.byContradiction fun hn => hs ?_
  rw [erom_of_valid hbad]
  exact eromLoop_none hmp hentry hm hc hn fuel

/-- **The EROM scan returns**, after a number of reads bounded by a constant, exactly from the ROMs in which no core
that the scan comes to counts master ports while there is no MPORT descriptor to be found. -/
theorem erom_returns_iff (rom : UInt32 → UInt32) :
    (∃ fuel base reads, cywEromFindSdioCoreBase rom fuel = some (base, reads) ∧ reads ≤ eromReadsMax) ↔
      EromEnds rom := by
  constructor
  · rintro ⟨fuel, base, reads, hs, -⟩
    apply Classical.byContradiction
    intro h
    rw [erom_none h fuel] at hs
    cases hs
  · intro h
    by_cases hbad : eromBase rom = 0 ∨ eromBase rom = 0xffffffff
    · exact ⟨0, 0, 1, if_pos hbad, by decide⟩
    have hloop : ∃ fuel r, eromLoop rom fuel 512 (eromBase rom) false 1 = some r ∧ r.2 ≤ eromReadsMax := by
      rcases h.resolve_left hbad with hmp | hno
      · exact ⟨mportRounds, eromLoop_some hmp 512 false 1⟩
      · exact ⟨0, eromLoop_noMasters hno 0 EntryAt.first rfl 1⟩
    obtain ⟨fuel, ⟨base, reads⟩, hs, hle⟩ := hloop
    exact ⟨fuel, base, reads, (erom_of_valid hbad fuel).trans hs, hle⟩

/-- A table at 0x18001000 that ends inside the descriptors of its first core: CORE A, and a CORE B that counts one
master port. Everything else reads as 0. -/
def cutTable : UInt32 → UInt32 := fun a =>
  if a = 0x180000fc then 0x18001000 else if a = 0x18001000 then 0x82901 else if a = 0x18001004 then 0x10 else 0

theorem cutTable_endless : ¬EromEnds cutTable := by
  have hmp : ¬HasMport cutTable (eromBase cutTable) := by
    rintro ⟨b, -, hb⟩
    revert hb
    unfold cutTable
    split_ifs <;> decide
  rintro (hbad | h | hno)
  · revert hbad
    decide
  · exact hmp h
  · have hn := hno 0 _ _ (by decide) EntryAt.first (by decide)
    revert hn
    decide

/-- The search for the master port of that core never ends. -/
theorem erom_hangs : ¬∃ fuel base reads, cywEromFindSdioCoreBase cutTable fuel = some (base, reads) := by
  rintro ⟨fuel, base, reads, h⟩
  rw [erom_none cutTable_endless fuel] at h
  cases h

end Termination

end Cyw
