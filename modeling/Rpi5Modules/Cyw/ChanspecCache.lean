import Rpi5Modules.Cyw.Chanspec
import Rpi5Modules.Cyw.Escan
import Rpi5Modules.Lib.FifoRing
import Mathlib.Data.List.Nodup

/-!
# What the chanspec cache remembers

`cyw_bss_cs_cache_add` changes the chanspec of a BSS that is in the cache and puts a new one over the oldest otherwise.
A change does not make the entry younger, so what is in the cache depends on the insertions alone, and what is found
for a BSS on all additions.

- the cache is the last 32 insertions, each with the chanspec added last for it (`CacheRun.Ok`, `cacheRun_ok`);
- a BSSID is found exactly when fewer than 32 insertions came after its own last one, and then with its latest chanspec
  (`bssCsCache_semantics`);
- the chanspec for a join decodes to the channel the scan reported, cached or not (`join_channel_agrees`).
-/

namespace Cyw

open FifoRing

/-- Some slot holds the BSSID with a non-zero chanspec. -/
def BssCsCache.Has (c : BssCsCache) (bssid : Bssid) : Prop := ∃ e ∈ c.slots, e.isFor bssid = true

instance (c : BssCsCache) (bssid : Bssid) : Decidable (c.Has bssid) :=
  inferInstanceAs (Decidable (∃ e ∈ c.slots, _))

/-- A cache and the BSSIDs inserted into it so far, latest first: an addition with a chanspec of a BSSID that is not in
the cache is an insertion. -/
structure CacheRun where
  cache : BssCsCache
  insertions : List Bssid

/-- A call of `cyw_bss_cs_cache_add`. -/
def CacheRun.add (s : CacheRun) (a : Bssid × UInt16) : CacheRun where
  cache := cywBssCsCacheAdd s.cache a.1 a.2
  insertions := if a.2 ≠ 0 ∧ ¬s.cache.Has a.1 then a.1 :: s.insertions else s.insertions

/-- The calls, on the cache of a zeroed softc. -/
def cacheRun (adds : List (Bssid × UInt16)) : CacheRun := adds.foldl CacheRun.add ⟨BssCsCache.zeroed, []⟩

/-- The chanspec of the last addition for the BSSID that has one. -/
def latestChanspec (adds : List (Bssid × UInt16)) (bssid : Bssid) : Option UInt16 :=
  (adds.reverse.find? fun a => a.1 == bssid && a.2 != 0).map Prod.snd

/-- The BSSID has been inserted, and fewer than 32 insertions came after its last one. -/
def InsertedLately (insertions : List Bssid) (bssid : Bssid) : Prop :=
  ∃ newer older, insertions = newer ++ bssid :: older ∧ bssid ∉ newer ∧ newer.length < 32

/-- The chanspec derived from the IEEE channel. -/
def chanspecFallback (ieeeChan : Int) : UInt16 :=
  if ieeeChan ≤ 0 then 0
  else if ieeeChan ≤ 14 then 0x1000 ||| UInt16.ofNat ieeeChan.toNat
  else 0xD000 ||| UInt16.ofNat ieeeChan.toNat

/-! ## The last additions -/

section Latest

variable {adds : List (Bssid × UInt16)} {bssid b : Bssid} {cs : UInt16}

theorem latestChanspec_concat (adds : List (Bssid × UInt16)) (b bssid : Bssid) (cs : UInt16) :
    latestChanspec (adds ++ [(b, cs)]) bssid =
      if b = bssid ∧ cs ≠ 0 then some cs else latestChanspec adds bssid := by
  unfold latestChanspec
  rw [List.reverse_append, List.reverse_singleton, List.singleton_append, List.find?_cons]
  by_cases h : b = bssid ∧ cs ≠ 0
  · have ht : ((b == bssid) && (cs != 0)) = true := by simpa using h
    rw [if_pos h]
    simp only [ht, Option.map_some]
  · have hf : ((b == bssid) && (cs != 0)) = false := by simpa using h
    rw [if_neg h]
    simp only [hf]

theorem latestChanspec_ne_zero (h : latestChanspec adds bssid = some cs) : cs ≠ 0 := by
  obtain ⟨a, ha, rfl⟩ := Option.map_eq_some_iff.1 h
  have hp := List.find?_some ha
  simp only [Bool.and_eq_true, bne_iff_ne] at hp
  exact hp.2

theorem insertedLately_iff {insertions : List Bssid} :
    InsertedLately insertions bssid ↔ bssid ∈ insertions.take 32 := by
  constructor
  · rintro ⟨newer, older, rfl, -, hlen⟩
    rw [List.take_append, List.take_of_length_le (Nat.le_of_lt hlen)]
    obtain ⟨n, hn⟩ : ∃ n, 32 - newer.length = n + 1 := ⟨32 - newer.length - 1, by omega⟩
    rw [hn, List.take_succ_cons]
    exact List.mem_append_right _ List.mem_cons_self
  · intro h
    obtain ⟨newer, older, heq, hnot⟩ := List.eq_append_cons_of_mem h
    refine ⟨newer, older ++ insertions.drop 32, ?_, hnot, ?_⟩
    · have hsplit := List.take_append_drop 32 insertions
      rw [heq, List.append_assoc, List.cons_append] at hsplit
      exact hsplit.symm
    · have hlen := congrArg List.length heq
      rw [List.length_take, List.length_append, List.length_cons] at hlen
      omega

end Latest

/-! ## The ring -/

/-- A free slot. -/
def BssCs.free : BssCs := ⟨0, 0⟩

theorem isFor_iff {e : BssCs} {bssid : Bssid} : e.isFor bssid = true ↔ e.chanspec ≠ 0 ∧ e.bssid = bssid := by
  simp [BssCs.isFor]

theorem ne_free {e : BssCs} {bssid : Bssid} (h : e.isFor bssid = true) : e ≠ BssCs.free := by
  rintro rfl
  exact (isFor_iff.1 h).1 rfl

/-- The ring holds the entries `hist`, latest insertion first, of which the last 32 are for different BSSIDs and carry
the latest chanspecs. -/
structure CacheRun.Keeps (s : CacheRun) (adds : List (Bssid × UInt16)) (hist : List BssCs) : Prop where
  ring : FifoRing.Keeps cywBssCsCacheSize BssCs.free s.cache.slots s.cache.next hist
  insertions : hist.map BssCs.bssid = s.insertions
  latest : ∀ e ∈ hist.take cywBssCsCacheSize, latestChanspec adds e.bssid = some e.chanspec
  nodup : (s.insertions.take cywBssCsCacheSize).Nodup

/-- **The invariant of the cache.** -/
def CacheRun.Ok (s : CacheRun) (adds : List (Bssid × UInt16)) : Prop := ∃ hist, s.Keeps adds hist

section Keeps

variable {s : CacheRun} {adds : List (Bssid × UInt16)} {hist : List BssCs} {bssid : Bssid} {e : BssCs}

theorem CacheRun.Keeps.isFor_self (h : s.Keeps adds hist) (he : e ∈ hist.take cywBssCsCacheSize) :
    e.isFor e.bssid = true :=
  isFor_iff.2 ⟨latestChanspec_ne_zero (h.latest e he), rfl⟩

/-- What is found for a BSSID is its entry among the last 32. -/
theorem CacheRun.Keeps.mem_iff (h : s.Keeps adds hist) :
    e ∈ s.cache.slots ∧ e.isFor bssid = true ↔ e ∈ hist.take cywBssCsCacheSize ∧ e.bssid = bssid := by
  constructor
  · rintro ⟨hm, hf⟩
    exact ⟨(h.ring.mem_slots_iff (ne_free hf)).1 hm, (isFor_iff.1 hf).2⟩
  · rintro ⟨hm, rfl⟩
    have hf := h.isFor_self hm
    exact ⟨(h.ring.mem_slots_iff (ne_free hf)).2 hm, hf⟩

theorem CacheRun.Keeps.has_iff (h : s.Keeps adds hist) :
    s.cache.Has bssid ↔ bssid ∈ s.insertions.take cywBssCsCacheSize := by
  rw [← h.insertions, ← List.map_take, List.mem_map]
  exact exists_congr fun e => h.mem_iff

/-- Two of the last 32 entries for one BSSID are one. -/
theorem CacheRun.Keeps.age_unique (h : s.Keeps adds hist) {k l : Nat} {f : BssCs} (hk : k < cywBssCsCacheSize)
    (hl : l < cywBssCsCacheSize) (he : hist[k]? = some e) (hf : hist[l]? = some f) (hef : e.bssid = f.bssid) :
    k = l := by
  have hbe : (s.insertions.take cywBssCsCacheSize)[k]? = some e.bssid := by
    rw [List.getElem?_take_of_lt hk, ← h.insertions, List.getElem?_map, he, Option.map_some]
  have hbf : (s.insertions.take cywBssCsCacheSize)[l]? = some e.bssid := by
    rw [List.getElem?_take_of_lt hl, ← h.insertions, List.getElem?_map, hf, Option.map_some, hef]
  obtain ⟨_, hke⟩ := List.getElem?_eq_some_iff.1 hbe
  obtain ⟨_, hle⟩ := List.getElem?_eq_some_iff.1 hbf
  exact h.nodup.getElem_inj_iff.1 (hke.trans hle.symm)

/-- Two slots for one BSSID are one slot. -/
theorem CacheRun.Keeps.slot_unique (h : s.Keeps adds hist) {i j : Nat} {f : BssCs}
    (hi : s.cache.slots[i]? = some e) (hj : s.cache.slots[j]? = some f) (he : e.isFor bssid = true)
    (hf : f.isFor bssid = true) : i = j := by
  obtain ⟨k, hk, rfl, hek⟩ := h.ring.slot_cases hi (ne_free he)
  obtain ⟨l, hl, rfl, hfl⟩ := h.ring.slot_cases hj (ne_free hf)
  rw [h.age_unique hk hl hek hfl ((isFor_iff.1 he).2.trans (isFor_iff.1 hf).2.symm)]

end Keeps

/-! ### One addition -/

section Step

variable {s : CacheRun} {adds : List (Bssid × UInt16)} {hist : List BssCs} {b : Bssid} {cs : UInt16}

theorem not_has_iff_findIdx? {c : BssCsCache} : ¬c.Has b ↔ c.slots.findIdx? (BssCs.isFor b) = none := by
  rw [List.findIdx?_eq_none_iff]
  simp [BssCsCache.Has]

/-- Without a chanspec, nothing changes. -/
theorem CacheRun.Keeps.add_zero (h : s.Keeps adds hist) : (s.add (b, 0)).Keeps (adds ++ [(b, 0)]) hist where
  ring := h.ring
  insertions := by
    rw [h.insertions, CacheRun.add, if_neg fun hn => hn.1 rfl]
  latest e he := by
    rw [latestChanspec_concat, if_neg fun hn => hn.2 rfl]
    exact h.latest e he
  nodup := by
    rw [CacheRun.add, if_neg fun hn => hn.1 rfl]
    exact h.nodup

/-- A BSSID that is not there is inserted. -/
theorem CacheRun.Keeps.add_insert (h : s.Keeps adds hist) (hcs : cs ≠ 0) (hb : ¬s.cache.Has b) :
    (s.add (b, cs)).Keeps (adds ++ [(b, cs)]) (⟨b, cs⟩ :: hist) where
  ring := by
    have hadd : cywBssCsCacheAdd s.cache b cs =
        ⟨s.cache.slots.set s.cache.next ⟨b, cs⟩, (s.cache.next + 1) % cywBssCsCacheSize⟩ := by
      rw [cywBssCsCacheAdd, if_neg hcs, not_has_iff_findIdx?.1 hb]
    show FifoRing.Keeps _ _ (cywBssCsCacheAdd s.cache b cs).slots (cywBssCsCacheAdd s.cache b cs).next _
    rw [hadd]
    exact h.ring.push _
  insertions := by
    rw [List.map_cons, h.insertions]
    exact (if_pos ⟨hcs, hb⟩).symm
  latest e he := by
    rw [show cywBssCsCacheSize = 31 + 1 from rfl, List.take_succ_cons] at he
    rw [latestChanspec_concat]
    rcases List.mem_cons.1 he with rfl | he
    · exact if_pos ⟨rfl, hcs⟩
    · have hold : e ∈ hist.take cywBssCsCacheSize := List.take_subset_take_left _ (by decide) he
      have hne : ¬(b = e.bssid ∧ cs ≠ 0) := fun hn => hb ⟨e, h.mem_iff.2 ⟨hold, hn.1.symm⟩⟩
      rw [if_neg hne]
      exact h.latest e hold
  nodup := by
    have hins : (s.add (b, cs)).insertions = b :: s.insertions := if_pos ⟨hcs, hb⟩
    rw [hins, show cywBssCsCacheSize = 31 + 1 from rfl, List.take_succ_cons, List.nodup_cons]
    have hsub : (s.insertions.take 31).Sublist (s.insertions.take cywBssCsCacheSize) :=
      List.take_sublist_take_left (by decide)
    exact ⟨fun hm => hb (h.has_iff.2 (hsub.subset hm)), h.nodup.sublist hsub⟩

/-- A change of a chanspec leaves the BSSIDs as they are. -/
theorem map_bssid_modify (hist : List BssCs) (k : Nat) (cs : UInt16) :
    (hist.modify k fun e => { e with chanspec := cs }).map BssCs.bssid = hist.map BssCs.bssid := by
  apply List.ext_getElem?
  intro i
  rw [List.getElem?_map, List.getElem?_map, List.getElem?_modify]
  cases hist[i]? with
  | none => rfl
  | some e => by_cases h : k = i <;> simp [h]

/-- A BSSID that is there gets the new chanspec and keeps its age. -/
theorem CacheRun.Keeps.add_update (h : s.Keeps adds hist) (hcs : cs ≠ 0) (hb : s.cache.Has b) :
    ∃ hist', (s.add (b, cs)).Keeps (adds ++ [(b, cs)]) hist' := by
  obtain ⟨i, hi⟩ := Option.ne_none_iff_exists'.1 fun hn => not_has_iff_findIdx?.2 hn hb
  obtain ⟨hlt, hfor, -⟩ := List.findIdx?_eq_some_iff_getElem.1 hi
  obtain ⟨k, hk, rfl, hv⟩ := h.ring.slot_cases (List.getElem?_eq_getElem hlt) (ne_free hfor)
  generalize s.cache.slots[back cywBssCsCacheSize s.cache.next k] = old at hfor hv
  have hadd : cywBssCsCacheAdd s.cache b cs = { s.cache with
      slots := s.cache.slots.modify (back cywBssCsCacheSize s.cache.next k) fun e => { e with chanspec := cs } } := by
    rw [cywBssCsCacheAdd, if_neg hcs, hi]
  have hins : (s.add (b, cs)).insertions = s.insertions := if_neg fun hn => hn.2 hb
  refine ⟨hist.modify k fun e => { e with chanspec := cs }, ⟨?_, ?_, ?_, ?_⟩⟩
  · show FifoRing.Keeps _ _ (cywBssCsCacheAdd s.cache b cs).slots (cywBssCsCacheAdd s.cache b cs).next _
    rw [hadd]
    exact h.ring.modify hk (List.getElem?_eq_some_iff.1 hv).1 _
  · rw [hins, ← h.insertions, map_bssid_modify]
  · intro e he
    obtain ⟨l, hl⟩ := List.mem_iff_getElem?.1 he
    have hl32 : l < cywBssCsCacheSize := by
      have := (List.getElem?_eq_some_iff.1 hl).1
      rw [List.length_take] at this
      omega
    rw [List.getElem?_take_of_lt hl32, List.getElem?_modify] at hl
    obtain ⟨f, hf, hef⟩ := Option.map_eq_some_iff.1 hl
    rw [latestChanspec_concat]
    by_cases hkl : k = l
    · subst hkl
      rw [hv] at hf
      obtain rfl := Option.some.inj hf
      rw [if_pos rfl] at hef
      rw [← hef]
      exact if_pos ⟨(isFor_iff.1 hfor).2.symm, hcs⟩
    · rw [if_neg hkl] at hef
      subst hef
      have hne : ¬(b = f.bssid ∧ cs ≠ 0) := by
        rintro ⟨hbf, -⟩
        exact hkl (h.age_unique hk hl32 hv hf ((isFor_iff.1 hfor).2.trans hbf))
      rw [if_neg hne]
      exact h.latest f (List.mem_iff_getElem?.2 ⟨l, by rw [List.getElem?_take_of_lt hl32, hf]⟩)
  · rw [hins]
    exact h.nodup

/-- Every addition keeps the invariant. -/
theorem CacheRun.Ok.add (h : s.Ok adds) (a : Bssid × UInt16) : (s.add a).Ok (adds ++ [a]) := by
  obtain ⟨hist, hk⟩ := h
  obtain ⟨b, cs⟩ := a
  by_cases hcs : cs = 0
  · subst hcs
    exact ⟨hist, hk.add_zero⟩
  · by_cases hb : s.cache.Has b
    · exact hk.add_update hcs hb
    · exact ⟨_, hk.add_insert hcs hb⟩

end Step

/-- The invariant holds after any additions. -/
theorem cacheRun_ok (adds : List (Bssid × UInt16)) : (cacheRun adds).Ok adds := by
  have hrun : ∀ (more before : List (Bssid × UInt16)) (s : CacheRun), s.Ok before →
      (more.foldl CacheRun.add s).Ok (before ++ more) := by
    intro more
    induction more with
    | nil =>
      intro before s h
      rw [List.append_nil]
      exact h
    | cons a more ih =>
      intro before s h
      rw [List.foldl_cons, ← List.singleton_append, ← List.append_assoc]
      exact ih _ _ (h.add a)
  refine hrun adds [] _ ⟨[], ⟨FifoRing.Keeps.empty (by decide), rfl, fun e he => ?_, ?_⟩⟩
  · rw [List.take_nil] at he
    cases he
  · exact List.nodup_nil

/-! ## What a join finds -/

section Lookup

variable {s : CacheRun} {adds : List (Bssid × UInt16)} {bssid : Bssid}

theorem forJoin_hit (h : s.Ok adds) (hb : s.cache.Has bssid) (ieeeChan : Int) :
    latestChanspec adds bssid = some (cywChanspecForJoin s.cache bssid ieeeChan) := by
  obtain ⟨hist, hk⟩ := h
  unfold cywChanspecForJoin
  cases hf : s.cache.slots.find? (BssCs.isFor bssid) with
  | none =>
    obtain ⟨e, he, hfor⟩ := hb
    exact absurd hfor (List.find?_eq_none.1 hf e he)
  | some e =>
    obtain ⟨hm, rfl⟩ := hk.mem_iff.1 ⟨List.mem_of_find?_eq_some hf, List.find?_some hf⟩
    exact hk.latest e hm

theorem forJoin_miss {c : BssCsCache} (hb : ¬c.Has bssid) (ieeeChan : Int) :
    cywChanspecForJoin c bssid ieeeChan = chanspecFallback ieeeChan := by
  have hf : c.slots.find? (BssCs.isFor bssid) = none :=
    List.find?_eq_none.2 fun e he hfor => hb ⟨e, he, hfor⟩
  rw [cywChanspecForJoin, hf]
  rfl

end Lookup

/-- **Chanspec cache semantics**: after any additions to a zeroed cache, a BSSID has at most one slot, the position is
a slot, a hit is the latest chanspec added, and there is a hit exactly for a BSSID inserted lately. -/
theorem bssCsCache_semantics (adds : List (Bssid × UInt16)) :
    (∀ (bssid : Bssid) (i j : Nat) (e f : BssCs), (cacheRun adds).cache.slots[i]? = some e →
        (cacheRun adds).cache.slots[j]? = some f → e.isFor bssid = true → f.isFor bssid = true → i = j) ∧
      (cacheRun adds).cache.next < 32 ∧
      ∀ bssid ieeeChan,
        ((cacheRun adds).cache.Has bssid ↔ InsertedLately (cacheRun adds).insertions bssid) ∧
        ((cacheRun adds).cache.Has bssid →
          latestChanspec adds bssid = some (cywChanspecForJoin (cacheRun adds).cache bssid ieeeChan)) ∧
        (¬(cacheRun adds).cache.Has bssid →
          cywChanspecForJoin (cacheRun adds).cache bssid ieeeChan = chanspecFallback ieeeChan) := by
  have hok := cacheRun_ok adds
  obtain ⟨hist, hk⟩ := hok
  refine ⟨fun bssid i j e f => hk.slot_unique, hk.ring.next_lt, fun bssid ieeeChan => ⟨?_, ?_, ?_⟩⟩
  · rw [insertedLately_iff]
    exact hk.has_iff
  · exact fun hb => forJoin_hit ⟨hist, hk⟩ hb ieeeChan
  · exact fun hb => forJoin_miss hb ieeeChan

/-! ## Scan and join -/

/-- The address in six bytes. -/
def bssidOf (bytes : List UInt8) : Bssid := BitVec.ofNat 48 (bytes.foldl (fun a x => 256 * a + x.toNat) 0)

/-- What `cyw_add_bss` adds to the cache for a record: `cyw_bss_cs_cache_add(sc, bi->BSSID, chanspec)`. -/
def BssReport.cached (r : BssReport) : Bssid × UInt16 := (bssidOf r.bssid, r.chanspec)

/-- The reports of `cyw_add_bss` for records, each given by its length and bytes. -/
def scanReports (records : List (UInt32 × (Nat → UInt8))) : List BssReport :=
  records.map fun r => (cywAddBss r.1).result r.2

/-- A channel that is derived from the number alone is that channel. -/
theorem fallback_channel {c : Int} (h1 : 1 ≤ c) (h255 : c ≤ 255) :
    cywChanspecToChannel (chanspecFallback c) = c := by
  have hall : ∀ n : Fin 256, 1 ≤ n.val → cywChanspecToChannel (chanspecFallback n.val) = n.val := by
    decide +kernel
  obtain ⟨n, rfl⟩ := Int.eq_ofNat_of_zero_le (Int.le_trans (by decide) h1)
  have hn : n < 256 := by omega
  exact hall ⟨n, hn⟩ (by show 1 ≤ n; omega)

/-- The channel `cyw_add_bss` reports is the one its chanspec decodes to. -/
theorem addBss_chan (biLen : UInt32) (b : Nat → UInt8) :
    ((cywAddBss biLen).result b).chan = cywChanspecToChannel ((cywAddBss biLen).result b).chanspec := by
  simp only [cywAddBss, BufProg.result_bind]
  split <;> simp only [BufProg.result_bind, BufProg.result_pure]

/-- A chanspec for a join decodes to the channel, be it the cached one or not. -/
theorem forJoin_channel {s : CacheRun} {adds : List (Bssid × UInt16)} (h : s.Ok adds) {bssid : Bssid} {cs : UInt16}
    {c : Int} (hcs : latestChanspec adds bssid = some cs) (hc : cywChanspecToChannel cs = c) (h1 : 1 ≤ c)
    (h255 : c ≤ 255) : cywChanspecToChannel (cywChanspecForJoin s.cache bssid c) = c := by
  by_cases hb : s.cache.Has bssid
  · have hhit := forJoin_hit h hb c
    rw [hcs] at hhit
    rw [← Option.some.inj hhit]
    exact hc
  · rw [forJoin_miss hb]
    exact fallback_channel h1 h255

/-- After a record with a chanspec, a join of its BSSID on the reported channel is a join on that channel. -/
theorem join_reported (records : List (UInt32 × (Nat → UInt8))) (biLen : UInt32) (b : Nat → UInt8) {r : BssReport}
    (hr : (cywAddBss biLen).result b = r) (h0 : r.chanspec ≠ 0) (h1 : 1 ≤ r.chan) (h255 : r.chan ≤ 255) :
    cywChanspecToChannel (cywChanspecForJoin
      (cacheRun ((scanReports (records ++ [(biLen, b)])).map BssReport.cached)).cache (bssidOf r.bssid) r.chan) =
      r.chan := by
  have hchan : cywChanspecToChannel r.chanspec = r.chan := hr ▸ (addBss_chan biLen b).symm
  refine forJoin_channel (cacheRun_ok _) ?_ hchan h1 h255
  rw [scanReports, List.map_append, List.map_append, List.map_singleton, List.map_singleton]
  rw [hr, BssReport.cached, latestChanspec_concat]
  exact if_pos ⟨rfl, h0⟩

/-- **Scan and join agree on the primary channel**: for a BSSID whose latest cached chanspec decodes to a channel, the
chanspec for a join on that channel decodes to it as well. -/
theorem join_channel_agrees (records : List (UInt32 × (Nat → UInt8))) (bssid : Bssid) (cs : UInt16) (c : Int)
    (hcs : latestChanspec ((scanReports records).map BssReport.cached) bssid = some cs)
    (hc : cywChanspecToChannel cs = c) (h1 : 1 ≤ c) (h255 : c ≤ 255) :
    cywChanspecToChannel
      (cywChanspecForJoin (cacheRun ((scanReports records).map BssReport.cached)).cache bssid c) = c :=
  forJoin_channel (cacheRun_ok _) hcs hc h1 h255

/-- A record of an 80 MHz BSS with centre 42 whose primary channel is 48. -/
def wideRecord : Nat → UInt8 := fun i => if i = 72 then 0x2a else if i = 73 then 0xe3 else 0

theorem join_channel_agrees_wide :
    latestChanspec ((scanReports [(128, wideRecord)]).map BssReport.cached) 0 = some 0xe32a ∧
      cywChanspecToChannel 0xe32a = 48 ∧
      cywChanspecToChannel
        (cywChanspecForJoin (cacheRun ((scanReports [(128, wideRecord)]).map BssReport.cached)).cache 0 48) = 48 := by
  have hcs : latestChanspec ((scanReports [(128, wideRecord)]).map BssReport.cached) 0 = some 0xe32a := rfl
  have hc : cywChanspecToChannel 0xe32a = 48 := by decide
  exact ⟨hcs, hc, join_channel_agrees _ 0 0xe32a 48 hcs hc (by decide) (by decide)⟩

end Cyw
