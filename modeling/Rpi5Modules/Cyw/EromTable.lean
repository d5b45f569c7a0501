import Rpi5Modules.Cyw.Erom

/-!
# Well-formed EROM tables

A table is a sequence of cores and an end mark; a core is its CORE A and CORE B words, as many MPORT descriptors as
CORE B counts, and regions, with a size word where the size field says so (`EromTable`).

The scan takes a whole core at a time: master ports are skipped one by one (`skipMports_mports`), and the regions are
met in the mode of their core (`eromLoop_regions`). So it returns the first device region of an SDIO core
(`erom_finds`).
-/

namespace Cyw

open Search

/-! ## Tables -/

/-- A REGION word, with a size word exactly if its size field is 3. -/
structure EromRegion where
  word : UInt32
  sizeWord : Option UInt32
  region : isRegion word = true
  size : sizeWord.isSome = (regionSize word == bcmaEromRegionSizeOther)

/-- A core: CORE A, CORE B, the master ports CORE B counts, and regions. -/
structure EromCore where
  coreA : UInt32
  coreB : UInt32
  mports : List UInt32
  regions : List EromRegion
  core : isCore coreA = true
  mport : ∀ w ∈ mports, isMport w = true
  count : mports.length = (nmp coreB).toNat

/-- A table of at most 512 CORE and REGION entries. -/
structure EromTable where
  cores : List EromCore
  eof : UInt32
  eofMark : isEof eof = true
  entries : cores.length + (cores.flatMap EromCore.regions).length ≤ 512

def EromRegion.words (r : EromRegion) : List UInt32 := r.word :: r.sizeWord.toList

def EromCore.words (c : EromCore) : List UInt32 :=
  c.coreA :: c.coreB :: (c.mports ++ c.regions.flatMap EromRegion.words)

def EromTable.words (t : EromTable) : List UInt32 := t.cores.flatMap EromCore.words ++ [t.eof]

def EromCore.isSdiod (c : EromCore) : Bool := corid c.coreA == bhndCoreidSdiod

/-- The first region, in table order, of type DEVICE and port 0 that belongs to an SDIO core. -/
def sdiodRegion (cores : List EromCore) : Option EromRegion :=
  ((cores.filter EromCore.isSdiod).flatMap EromCore.regions).find? fun r => isDevice0 r.word

/-- Its base, 0 if there is none. -/
def EromTable.sdiodBase (t : EromTable) : UInt32 := (sdiodRegion t.cores).elim 0 fun r => regionBase r.word

/-- The ROM holds the words from `a` on. -/
def StoredAt (rom : UInt32 → UInt32) : (a : UInt32) → List UInt32 → Prop
  | _, [] => True
  | a, w :: ws => rom a = w ∧ StoredAt rom (a + 4) ws

/-- The address `n` words further on. -/
def wordsOn (a : UInt32) (n : Nat) : UInt32 := (· + 4)^[n] a

/-! ## The scan of a table -/

section Scan

variable {rom : UInt32 → UInt32} {fuel n reads : Nat} {a : UInt32} {sd : Bool} {us vs : List UInt32}

theorem wordsOn_add (a : UInt32) (m n : Nat) : wordsOn a (m + n) = wordsOn (wordsOn a m) n := by
  unfold wordsOn
  rw [Nat.add_comm, Function.iterate_add_apply]

theorem storedAt_append : StoredAt rom a (us ++ vs) ↔ StoredAt rom a us ∧ StoredAt rom (wordsOn a us.length) vs := by
  induction us generalizing a with
  | nil => exact (iff_of_eq (true_and _)).symm
  | cons u us ih =>
    show rom a = u ∧ StoredAt rom (a + 4) (us ++ vs) ↔ (rom a = u ∧ StoredAt rom (a + 4) us) ∧ _
    rw [ih, and_assoc]
    exact Iff.rfl

/-- Each search for a master port finds the next word. -/
theorem skipMports_mports (hf : 0 < fuel) (hst : StoredAt rom a us) (hm : ∀ w ∈ us, isMport w = true) (reads : Nat) :
    ∃ k, skipMports rom fuel us.length a reads = some (wordsOn a us.length, k) := by
  induction us generalizing a reads with
  | nil => exact ⟨reads, rfl⟩
  | cons u us ih =>
    obtain ⟨m, rfl⟩ := Nat.exists_eq_succ_of_ne_zero (Nat.ne_of_gt hf)
    have hu : isMport (rom a) = true := by
      rw [hst.1]
      exact hm u List.mem_cons_self
    have hskip : skipMport rom (m + 1) a = some (a + 4, 1) := by
      unfold skipMport
      rw [search_succ_pos (p := fun a => isMport (rom a)) hu]
      rfl
    obtain ⟨k, hk⟩ := ih hst.2 (fun w hw => hm w (List.mem_cons_of_mem u hw)) (reads + 1)
    refine ⟨k, ?_⟩
    rw [List.length_cons, skipMports, hskip]
    exact hk

/-- The address behind a region. -/
theorem regionEnd_word (r : EromRegion) (a : UInt32) : regionEnd r.word a = wordsOn a r.words.length := by
  have hsize := r.size
  unfold regionEnd EromRegion.words
  cases hw : r.sizeWord with
  | none =>
    rw [hw] at hsize
    rw [if_neg fun h => by rw [h] at hsize; exact absurd hsize (by decide)]
    rfl
  | some w =>
    rw [hw] at hsize
    rw [if_pos (eq_of_beq hsize.symm)]
    rfl

/-- The region of a core that ends the scan, if the core is an SDIO core. -/
def sought (sd : Bool) (rs : List EromRegion) : Option EromRegion :=
  if sd then rs.find? fun r => isDevice0 r.word else none

theorem sought_cons (sd : Bool) (r : EromRegion) (rs : List EromRegion) :
    sought sd (r :: rs) = if (sd && isDevice0 r.word) = true then some r else sought sd rs := by
  unfold sought
  cases sd with
  | false => rfl
  | true =>
    rw [List.find?_cons]
    cases isDevice0 r.word with
    | false => rfl
    | true => rfl

/-- The regions of a core: the one sought ends the scan, without one it goes on behind them. -/
theorem eromLoop_regions (fuel : Nat) {rs : List EromRegion} (hst : StoredAt rom a (rs.flatMap EromRegion.words))
    (hn : rs.length ≤ n) (sd : Bool) (reads : Nat) : ∃ k, eromLoop rom fuel n a sd reads =
      match sought sd rs with
      | some r => some (regionBase r.word, k)
      | none => eromLoop rom fuel (n - rs.length) (wordsOn a (rs.flatMap EromRegion.words).length) sd k := by
  induction rs generalizing a n reads with
  | nil =>
    refine ⟨reads, ?_⟩
    cases sd with
    | false => rfl
    | true => rfl
  | cons r rs ih =>
    rw [List.flatMap_cons, storedAt_append] at hst
    obtain ⟨hr, hrs⟩ := hst
    have hword : rom a = r.word := hr.1
    have hreg : isRegion (rom a) = true := by
      rw [hword]
      exact r.region
    rw [List.length_cons] at hn
    obtain ⟨m, rfl⟩ := Nat.exists_eq_succ_of_ne_zero (Nat.ne_of_gt (Nat.zero_lt_of_lt hn))
    rw [eromLoop_region hreg, hword, sought_cons]
    by_cases hdev : (sd && isDevice0 r.word) = true
    · exact ⟨reads + 1, by rw [if_pos hdev, if_pos hdev]⟩
    · obtain ⟨k, hk⟩ := ih (n := m) hrs (Nat.le_of_succ_le_succ hn) (reads + 1)
      refine ⟨k, ?_⟩
      rw [if_neg hdev, if_neg hdev, regionEnd_word, hk, List.flatMap_cons, List.length_append, wordsOn_add,
        List.length_cons, Nat.succ_sub_succ]

/-- The cores of a table, and its end mark. -/
theorem eromLoop_cores (hf : 0 < fuel) {cores : List EromCore} {eof : UInt32} (heof : isEof eof = true)
    (hst : StoredAt rom a (cores.flatMap EromCore.words ++ [eof]))
    (hn : cores.length + (cores.flatMap EromCore.regions).length ≤ n) (sd : Bool) (reads : Nat) :
    ∃ k, eromLoop rom fuel n a sd reads = some ((sdiodRegion cores).elim 0 fun r => regionBase r.word, k) := by
  induction cores generalizing a n sd reads with
  | nil =>
    cases n with
    | zero => exact ⟨reads, rfl⟩
    | succ n =>
      have he : isEof (rom a) = true := by rw [hst.1]; exact heof
      exact ⟨reads + 1, eromLoop_eof he⟩
  | cons c cores ih =>
    rw [List.length_cons, List.flatMap_cons, List.length_append] at hn
    obtain ⟨m, rfl⟩ : ∃ m, n = m + 1 := ⟨n - 1, by omega⟩
    -- CORE A, CORE B, the master ports, the regions, and the other cores with the end mark
    rw [List.flatMap_cons, List.append_assoc, storedAt_append] at hst
    obtain ⟨⟨hA, hB, hst⟩, hrest⟩ := hst
    obtain ⟨hmp, hregs⟩ := storedAt_append.1 hst
    have hcore : isCore (rom a) = true := by
      rw [hA]
      exact c.core
    obtain ⟨k₁, hskip⟩ := skipMports_mports hf hmp c.mport (reads + 2)
    obtain ⟨k₂, hloop⟩ := eromLoop_regions fuel hregs (n := m) (by omega) c.isSdiod k₁
    have hmode : (corid (rom a) == bhndCoreidSdiod) = c.isSdiod := by
      rw [hA]
      rfl
    have hfirst : eromLoop rom fuel (m + 1) a sd reads = eromLoop rom fuel m
        (wordsOn (a + 4 + 4) c.mports.length) c.isSdiod k₁ := by
      rw [eromLoop_core hcore, hB, ← c.count, hskip, ← hmode]
      rfl
    have hregion : sdiodRegion (c :: cores) = (sought c.isSdiod c.regions).or (sdiodRegion cores) := by
      unfold sdiodRegion sought
      cases hs : c.isSdiod with
      | false =>
        rw [List.filter_cons_of_neg (by rw [hs]; exact Bool.false_ne_true)]
        rfl
      | true => rw [List.filter_cons_of_pos hs, List.flatMap_cons, List.find?_append]; rfl
    have hbehind : wordsOn (wordsOn (a + 4 + 4) c.mports.length) (c.regions.flatMap EromRegion.words).length =
        wordsOn a c.words.length := by
      rw [← wordsOn_add, ← List.length_append]
      rfl
    rw [hfirst, hloop, hregion]
    cases sought c.isSdiod c.regions with
    | some r => exact ⟨k₂, rfl⟩
    | none =>
      rw [hbehind]
      exact ih hrest (by omega) c.isSdiod k₂

/-- **The EROM scan finds the right core**: from a well-formed table at a valid EROMPTR it returns the base of the first
device region, in table order, of an SDIO core, and 0 if there is none. -/
theorem erom_finds (t : EromTable) (hbase : ¬(eromBase rom = 0 ∨ eromBase rom = 0xffffffff))
    (hst : StoredAt rom (eromBase rom) t.words) (hf : 0 < fuel) :
    ∃ reads, cywEromFindSdioCoreBase rom fuel = some (t.sdiodBase, reads) := by
  rw [erom_of_valid hbase]
  exact eromLoop_cores hf t.eofMark hst t.entries false 1

/-- A core that is not the SDIO core, with one master port and a device region with a size word that looks like a
core, and the SDIO core with two regions. -/
def twoCores : EromTable where
  cores :=
    [{ coreA := 0x00080001, coreB := 0x10, mports := [0x3]
       regions := [⟨0x18000035, some 0x82901, by decide, by decide⟩]
       core := by decide, mport := List.forall_mem_singleton.2 (by decide), count := by decide },
     { coreA := 0x00082901, coreB := 0x0, mports := []
       regions := [⟨0x18102085, none, by decide, by decide⟩, ⟨0x18002005, none, by decide, by decide⟩]
       core := by decide, mport := (fun _ h => by cases h), count := by decide }]
  eof := 0xf
  eofMark := by decide
  entries := by decide

/-- The table at 0x18001000. -/
def twoCoresRom : UInt32 → UInt32 := fun a =>
  if a = 0x180000fc then 0x18001000 else twoCores.words.getD ((a.toNat - 0x18001000) / 4) 0

theorem erom_finds_twoCores : ∃ reads, cywEromFindSdioCoreBase twoCoresRom 1 = some (0x18002000, reads) :=
  erom_finds twoCores (by decide) ⟨rfl, rfl, rfl, rfl, rfl, rfl, rfl, rfl, rfl, rfl, trivial⟩ (by decide)

end Scan

end Cyw
