import Rpi5Modules.Eth.Port

/-!
# The receive filter

`cgem_rx_filter` sets the filter for the flags and the multicast list there are. It is called when these change on a
running interface, as far as `cgem_ioctl` sees; `cgem_init_locked` does not call it, and starts from the cleared filter
of `cgem_reset`.

- `filter_rxFilter`, `filter_config`: what the functions make of the filter;
- the filter is the right one on a running interface exactly as long as the interface is brought up with flags and a
  list that need no filter, and IFF_BROADCAST changes only under IFF_PROMISC (`rx_filter_iff`).
-/

namespace Eth

open Flags Transition

/-! ## The hash -/

theorem cgemMacHashBit_lt {a : EtherAddr} {hash : BitVec 32} {i : Nat} (hh : hash.toNat < 2 ^ 6) (hi : i < 6) :
    (cgemMacHashBit a hash i).toNat < 2 ^ 6 := by
  unfold cgemMacHashBit
  refine List.foldlRecOn (motive := fun h : BitVec 32 => h.toNat < 2 ^ 6) _ _ hh ?_
  intro h hh j _
  split
  · rw [BitVec.toNat_xor]
    apply Nat.xor_lt_two_pow hh
    rw [BitVec.toNat_twoPow]
    exact Nat.lt_of_le_of_lt (Nat.mod_le _ _) (Nat.pow_lt_pow_right (by decide) hi)
  · exact hh

theorem cgemMacHash_lt (a : EtherAddr) : (cgemMacHash a).toNat < 2 ^ 6 := by
  unfold cgemMacHash
  refine List.foldlRecOn (motive := fun h : BitVec 32 => h.toNat < 2 ^ 6) _ _ (by decide) ?_
  intro h hh i hi
  exact cgemMacHashBit_lt hh (List.mem_range.1 hi)

/-- No bit is set. -/
def Hashes.Zero (h : Hashes) : Prop := h.top = 0 ∧ h.bot = 0

theorem cgemHashMaddr_ne (h : Hashes) (a : EtherAddr) : ¬(cgemHashMaddr h a).Zero := by
  have hne : ∀ (x : BitVec 32) (k : Nat), k < 32 → x ||| BitVec.twoPow 32 k ≠ 0 := by
    intro x k hk hz
    have hf : HasFlag (x ||| BitVec.twoPow 32 k) k := hasFlag_or.2 (.inr (by simp [hasFlag_iff, hk]))
    rw [hz] at hf
    exact not_hasFlag_zero hf
  have hlt := cgemMacHash_lt a
  unfold cgemHashMaddr
  dsimp only
  split
  · exact fun hz => hne _ _ (by omega) hz.1
  · exact fun hz => hne _ _ (by omega) hz.2

/-- Any address sets a bit, which stays set. -/
theorem foldl_cgemHashMaddr_zero {l : List EtherAddr} : (l.foldl cgemHashMaddr ⟨0, 0⟩).Zero ↔ l = [] := by
  constructor
  · intro hz
    rcases List.eq_nil_or_concat l with rfl | ⟨l', a, rfl⟩
    · rfl
    · rw [List.concat_eq_append, List.foldl_append] at hz
      exact (cgemHashMaddr_ne _ a hz).elim
  · rintro rfl
    exact ⟨rfl, rfl⟩

/-! ## What the functions make of the filter -/

/-- The filter the registers are set to. -/
def Mac.filter (m : Mac) : RxFilter :=
  ⟨HasFlag m.netCfg netCfgCopyAllBit, HasFlag m.netCfg netCfgNoBcastBit, HasFlag m.netCfg netCfgMultiHashEnBit,
    ⟨m.hashTop, m.hashBot⟩⟩

/-- The filter that lets unicast and broadcast frames in. -/
def RxFilter.cleared : RxFilter := ⟨false, false, false, ⟨0, 0⟩⟩

theorem hasFlag_filterBits : ∀ c n e : Bool, (HasFlag (filterBits c n e) netCfgCopyAllBit ↔ c = true) ∧
    (HasFlag (filterBits c n e) netCfgNoBcastBit ↔ n = true) ∧
      (HasFlag (filterBits c n e) netCfgMultiHashEnBit ↔ e = true) := by
  decide

/-- `cgem_rx_filter` sets the filter for the flags and the list. -/
theorem filter_rxFilter (m : Mac) (flags : BitVec 32) (mcast : List EtherAddr) :
    (cgemRxFilter m flags mcast).filter = rxFilter flags mcast := by
  have hmask : HasFlag cgemNetCfgFilterMask netCfgCopyAllBit ∧ HasFlag cgemNetCfgFilterMask netCfgNoBcastBit ∧
      HasFlag cgemNetCfgFilterMask netCfgMultiHashEnBit := by decide
  unfold Mac.filter cgemRxFilter
  generalize rxFilter flags mcast = f
  obtain ⟨hc, hn, he⟩ := hasFlag_filterBits f.copyAll f.noBcast f.multiHashEn
  simp only [Mac.wrNetCfg, Mac.wrHash, hasFlag_or, hasFlag_and_not, hmask, not_true, and_false, false_or, hc, hn, he,
    Bool.decide_eq_true]

/-- `cgem_config` leaves the hash alone and clears the rest of the filter. -/
theorem filter_config (m : Mac) (capenable : BitVec 32) :
    (cgemConfig m capenable).filter = ⟨false, false, false, ⟨m.hashTop, m.hashBot⟩⟩ := by
  have hkeep : ∀ k ∈ [netCfgCopyAllBit, netCfgNoBcastBit, netCfgMultiHashEnBit],
      ¬HasFlag configKeep k ∧ ¬HasFlag configBits k ∧ ¬HasFlag cgemNetCfgRxChksumOffldEn k := by decide
  have hclear : ∀ k ∈ [netCfgCopyAllBit, netCfgNoBcastBit, netCfgMultiHashEnBit],
      ¬HasFlag (configNetCfg m.netCfgShadow capenable) k := by
    intro k hk
    obtain ⟨h₁, h₂, h₃⟩ := hkeep k hk
    unfold configNetCfg
    split <;> simp [h₁, h₂, h₃]
  have hc := hclear netCfgCopyAllBit (by simp)
  have hn := hclear netCfgNoBcastBit (by simp)
  have he := hclear netCfgMultiHashEnBit (by simp)
  unfold Mac.filter cgemConfig
  simp only [Mac.wrNetCtrl, Mac.wrNetCfg, Mac.wrUserIo, hc, hn, he, decide_false]

/-- Flags and a list that need no filter. -/
def Plain (flags : BitVec 32) (mcast : List EtherAddr) : Prop :=
  ¬HasFlag flags iffPromiscBit ∧ HasFlag flags iffBroadcastBit ∧ ¬HasFlag flags iffAllmultiBit ∧ mcast = []

theorem rxFilter_eq_cleared {flags : BitVec 32} {mcast : List EtherAddr} :
    rxFilter flags mcast = RxFilter.cleared ↔ Plain flags mcast := by
  unfold rxFilter Plain RxFilter.cleared
  by_cases hp : HasFlag flags iffPromiscBit
  · simp [hp]
  · by_cases ha : HasFlag flags iffAllmultiBit
    · simp [hp, ha]
    · have hz := foldl_cgemHashMaddr_zero (l := mcast)
      unfold Hashes.Zero at hz
      rw [if_neg hp]
      simp only [ha, if_false, RxFilter.mk.injEq, true_and, not_false_eq_true]
      constructor
      · rintro ⟨hb, -, hh⟩
        exact ⟨hp, by simpa using hb, hz.1 ⟨congrArg Hashes.top hh, congrArg Hashes.bot hh⟩⟩
      · rintro ⟨-, hb, rfl⟩
        exact ⟨by simpa using hb, rfl, rfl⟩

/-- Where neither IFF_PROMISC nor IFF_ALLMULTI changes, the filter is the same exactly if IFF_BROADCAST does not change
either, or IFF_PROMISC hides it. -/
theorem rxFilter_congr {f g : BitVec 32} {mcast : List EtherAddr}
    (hp : HasFlag f iffPromiscBit ↔ HasFlag g iffPromiscBit)
    (ha : HasFlag f iffAllmultiBit ↔ HasFlag g iffAllmultiBit) :
    rxFilter f mcast = rxFilter g mcast ↔
      HasFlag f iffPromiscBit ∨ (HasFlag f iffBroadcastBit ↔ HasFlag g iffBroadcastBit) := by
  unfold rxFilter
  by_cases h : HasFlag f iffPromiscBit
  · simp [h, hp.1 h]
  · have h' : ¬HasFlag g iffPromiscBit := fun hg => h (hp.2 hg)
    simp only [h, h', if_false, ha, RxFilter.mk.injEq, true_and, and_true, false_or, Bool.not_eq_eq_eq_not,
      Bool.not_not, decide_eq_decide]

/-! ## On a running interface -/

namespace Port

/-- The registers hold the filter for the flags and the list there are. -/
def Filtered (p : Port) : Prop := p.serv.running = true → p.mac.filter = rxFilter p.ifFlags p.mcast

/-- They do, once whoever has the lock has released it. -/
def FilterOk (p : Port) : Prop := p.serv.lockFree = true → p.Filtered

/-- The interface is brought up with flags and a list that need no filter; on a running one, IFF_BROADCAST changes only
under IFF_PROMISC or together with IFF_PROMISC or IFF_ALLMULTI. -/
def KeepsFilter (p : Port) : PortAct → Prop
  | .init _ => p.serv.running = false → Plain p.ifFlags p.mcast
  | .ifflags flags _ =>
    HasFlag flags iffUpBit →
      if p.serv.running then
        (HasFlag flags iffPromiscBit ↔ HasFlag p.ifFlags iffPromiscBit) →
          (HasFlag flags iffAllmultiBit ↔ HasFlag p.ifFlags iffAllmultiBit) →
            HasFlag flags iffPromiscBit ∨ (HasFlag flags iffBroadcastBit ↔ HasFlag p.ifFlags iffBroadcastBit)
      else Plain flags p.mcast
  | _ => True

variable {p p' : Port} {a : PortAct}

/-- An interface that is brought up has the cleared filter. -/
theorem filter_up (hs : p.Synced) (hr : p.serv.running = false) {flags : BitVec 32} {mcast : List EtherAddr} :
    (cgemConfig p.mac p.capenable).filter = rxFilter flags mcast ↔ Plain flags mcast := by
  obtain ⟨htop, hbot⟩ := hs.hashes hr
  rw [filter_config, htop, hbot]
  exact eq_comm.trans rxFilter_eq_cleared

theorem filter_sioCSIFCap (hs : p.Synced) (reqcap : BitVec 32) : (p.sioCSIFCap reqcap).mac.filter = p.mac.filter := by
  have hcfg := (sioCSIFCap_netCfg reqcap hs.netCfg).2
  have hc := hcfg netCfgCopyAllBit (by decide)
  have hn := hcfg netCfgNoBcastBit (by decide)
  have he := hcfg netCfgMultiHashEnBit (by decide)
  unfold Mac.filter
  simp only [hc, hn, he]
  rw [sioCSIFCap_eq]

theorem filterChanged_eq_false {flags : BitVec 32} (hs : p.Synced) :
    filterChanged { p with ifFlags := flags } = false ↔
      (HasFlag flags iffPromiscBit ↔ HasFlag p.ifFlags iffPromiscBit) ∧
        (HasFlag flags iffAllmultiBit ↔ HasFlag p.ifFlags iffAllmultiBit) := by
  unfold filterChanged
  rw [hs.oldFlags]
  simp only [hasFlag_xor, decide_eq_false_iff_not, not_or, not_not]

/-- A step that meets the condition keeps the filter right, and no other one does. -/
theorem filtered_step (hs : p.Synced) (hf : p.Filtered) (h : Step p a p') :
    (p.KeepsFilter a → p'.Filtered) ∧ (p'.FilterOk → p.KeepsFilter a) := by
  cases h with
  | up hr ht =>
    constructor
    · intro hk _
      exact (filter_up hs hr).2 (hk hr)
    · intro hok hr'
      exact (filter_up hs hr).1 (hok ht.lockFree_after (ht.up hr))
  | upNot hr => exact ⟨fun _ => hf, fun _ hn => absurd (hr.symm.trans hn) Bool.noConfusion⟩
  | flagsUp hu hr ht =>
    simp only [KeepsFilter, hr, Bool.false_eq_true, if_false]
    constructor
    · intro hk _
      exact (filter_up hs hr).2 (hk hu)
    · intro hok _
      exact (filter_up hs hr).1 (hok ht.lockFree_after (ht.up hr))
  | flagsFilter hu hr hl hc =>
    rename_i flags os
    constructor
    · intro _ _
      exact filter_rxFilter _ _ _
    · intro _ _
      rw [if_pos hr]
      intro hp ha
      rw [(filterChanged_eq_false hs).2 ⟨hp, ha⟩] at hc
      cases hc
  | flagsKept hu hr hl hc =>
    obtain ⟨hp, ha⟩ := (filterChanged_eq_false hs).1 hc
    simp only [KeepsFilter, hr, if_true]
    constructor
    · intro hk _
      exact (hf hr).trans ((rxFilter_congr hp ha).2 (hk hu hp ha)).symm
    · intro hok _ _ _
      exact (rxFilter_congr hp ha).1 ((hok hl hr).symm.trans (hf hr))
  | flagsDown hu hr ht =>
    exact ⟨fun _ hr' => absurd (ht.running.symm.trans hr') (by simp [hr]), fun _ hu' => absurd hu' hu⟩
  | flagsDownNot hu hr => exact ⟨fun _ hr' => absurd (hr.symm.trans hr') Bool.noConfusion, fun _ hu' => absurd hu' hu⟩
  | multi hr hl => exact ⟨fun _ _ => filter_rxFilter _ _ _, fun _ => trivial⟩
  | multiNot hr => exact ⟨fun _ hr' => absurd (hr.symm.trans hr') Bool.noConfusion, fun _ => trivial⟩
  | ifcap ht =>
    rename_i reqcap sv
    refine ⟨fun _ hr => ?_, fun _ => trivial⟩
    have hfr := hf (ht.running.symm.trans hr)
    rw [← filter_sioCSIFCap hs reqcap] at hfr
    rw [sioCSIFCap_eq] at hfr ⊢
    exact hfr
  | tick hl =>
    rw [tick_eq]
    exact ⟨fun _ => hf, fun _ => trivial⟩
  | serv hst hr =>
    rw [served_eq]
    exact ⟨fun _ hr' => hf (hr.symm.trans hr'), fun _ => trivial⟩

/-- **The receive filter matches the interface exactly as long as no bring-up needs one.** For every order of the
ioctls, of `cgem_init`, of the tick and of the steps of servicing, with the flags and the multicast list changing in any
way: whenever the interface is running and the lock is free, NET_CFG and the hash are what `cgem_rx_filter` makes of the
flags and the list, if and only if the interface is brought up each time with neither IFF_PROMISC nor IFF_ALLMULTI, with
IFF_BROADCAST and an empty list, and IFF_BROADCAST changes on a running interface only where the driver sees it. -/
theorem rx_filter_iff (rxbufs : Int) (m : Mac) (cfgKva : Bool) (as : List PortAct) :
    AllStates step FilterOk (attached rxbufs m cfgKva) as ↔
      AllSteps step KeepsFilter (attached rxbufs m cfgKva) as := by
  refine allStates_iff (I := fun p => p.Synced ∧ p.Filtered) ?_ ?_ ?_ ?_
  · rintro p a p' ⟨hs, hf⟩ hk hst
    exact ⟨synced_step hs (step_cases hst), (filtered_step hs hf (step_cases hst)).1 hk⟩
  · intro p hp _
    exact hp.2
  · rintro p a p' ⟨hs, hf⟩ hst hok
    exact (filtered_step hs hf (step_cases hst)).2 hok
  · exact ⟨synced_attached rxbufs m cfgKva, fun hr => absurd hr Bool.noConfusion⟩

/-- The interface is up and joins a group, goes down and comes up again: the hash is empty. -/
theorem rx_filter_restart : ∃ t, run step (attached 0 Mac.zero false)
    [.ifflags 0x8803 [], .multi [0x0100005e0001], .ifflags 0x8802 [], .ifflags 0x8803 []] = some t ∧
      t.serv.running = true ∧ t.serv.lockFree = true ∧ t.mcast ≠ [] ∧
      t.mac.filter = RxFilter.cleared ∧ ¬t.FilterOk := by
  refine ⟨_, rfl, rfl, rfl, by decide, by decide, ?_⟩
  intro h
  exact absurd (h rfl rfl) (by decide)

end Port

end Eth
