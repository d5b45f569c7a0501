import Rpi5Modules.Eth.Port

/-!
# The speed of the MAC

At module load, `rp1_eth_modevent` resolves the negotiated speed and duplex, and sets NET_CFG and CLKGEN to them. Then
`rp1eth_attach` resets the MAC, `cgem_config` sets NET_CFG to 1000 Mbit/s in full duplex whenever the interface is
brought up, and `rp1eth_update_speed` copies what NET_CFG says to CLKGEN.

- `LinkMode.Shown`, `Overrides`: what it is that NET_CFG and CLKGEN say; `shown_config`, `hasFlag_rxFilter`,
  `overrides_overrideClkgen` say what the functions make of it;
- NET_CFG and CLKGEN say the resolved mode on a running interface exactly if that is 1000 Mbit/s in full duplex, or the
  interface is never brought up (`speed_iff`).
-/

namespace Eth

open Flags Transition

/-! ## What the registers say -/

/-- The speed and duplex bits of NET_CFG are those of the mode. -/
structure LinkMode.Shown (l : LinkMode) (netCfg : BitVec 32) : Prop where
  gige : HasFlag netCfg netCfgGigeEnBit ↔ l.speed = 1000
  speed100 : HasFlag netCfg netCfgSpeed100Bit ↔ l.speed = 100
  duplex : HasFlag netCfg netCfgFullDuplexBit ↔ l.fullDuplex = true

/-- CLKGEN overrides the speed. -/
def Overrides (clkgen : BitVec 32) (speed : Nat) : Prop :=
  HasFlag clkgen clkgenSpdOvrEnBit ∧ clkgen &&& ethCfgClkgenSpdOvrMask = spdVal speed

/-- The mode that `cgem_config` sets. -/
def LinkMode.gigabit : LinkMode := ⟨1000, true⟩

theorem spdVal_cases (speed : Nat) :
    spdVal speed = ethCfgClkgenSpd1g ∨ spdVal speed = ethCfgClkgenSpd100m ∨ spdVal speed = ethCfgClkgenSpd10m := by
  unfold spdVal
  split
  · exact .inl rfl
  · split
    · exact .inr (.inl rfl)
    · exact .inr (.inr rfl)

theorem overrides_overrideClkgen (clkgen : BitVec 32) (speed : Nat) :
    Overrides (overrideClkgen clkgen (spdVal speed)) speed := by
  have hen : HasFlag ethCfgClkgenSpdOvrEn clkgenSpdOvrEnBit := by decide
  have hfield : (ethCfgClkgenSpdOvrEn ||| spdVal speed ||| ethCfgClkgenEnable) &&& ethCfgClkgenSpdOvrMask =
      spdVal speed := by
    rcases spdVal_cases speed with h | h | h <;> rw [h] <;> decide
  unfold overrideClkgen
  refine ⟨by simp [hen], ?_⟩
  rw [BitVec.or_assoc, BitVec.and_or_distrib_right, hfield, BitVec.and_assoc]
  have hclear : ~~~(ethCfgClkgenEnable ||| ethCfgClkgenKill ||| ethCfgClkgenTxclkdelen ||| ethCfgClkgenSpdOvrEn |||
      ethCfgClkgenSpdOvrMask) &&& ethCfgClkgenSpdOvrMask = 0 := by decide
  rw [hclear]
  simp

/-- What `rp1eth_update_speed` reads is the speed that NET_CFG says. -/
theorem LinkMode.Shown.spdVal_netCfgSpeed {l : LinkMode} {netCfg : BitVec 32} (h : l.Shown netCfg) :
    spdVal (netCfgSpeed netCfg) = spdVal l.speed := by
  unfold netCfgSpeed
  split
  · next hg => rw [h.gige.1 hg]
  · next hg =>
    split
    · next hs => rw [h.speed100.1 hs]
    · next hs =>
      unfold spdVal
      rw [if_neg (mt h.gige.2 hg), if_neg (mt h.speed100.2 hs)]
      rfl

/-- `cgem_config` sets 1000 Mbit/s in full duplex, whatever was negotiated. -/
theorem shown_config (m : Mac) (capenable : BitVec 32) : LinkMode.gigabit.Shown (cgemConfig m capenable).netCfg := by
  have hset : ∀ k, HasFlag configBits k → HasFlag (configNetCfg m.netCfgShadow capenable) k := by
    intro k hk
    unfold configNetCfg
    simp [hk]
  have hkeep : ¬HasFlag configKeep netCfgSpeed100Bit ∧ ¬HasFlag configBits netCfgSpeed100Bit ∧
      ¬HasFlag cgemNetCfgRxChksumOffldEn netCfgSpeed100Bit := by decide
  have hspeed : ¬HasFlag (configNetCfg m.netCfgShadow capenable) netCfgSpeed100Bit := by
    obtain ⟨h₁, h₂, h₃⟩ := hkeep
    unfold configNetCfg
    split <;> simp [h₁, h₂, h₃]
  exact ⟨iff_of_true (hset _ (by decide)) rfl, iff_of_false hspeed (by decide), iff_of_true (hset _ (by decide)) rfl⟩

/-- NET_CFG says one mode. -/
theorem LinkMode.Shown.eq_gigabit {l : LinkMode} {netCfg : BitVec 32} (h : l.Shown netCfg)
    (h' : LinkMode.gigabit.Shown netCfg) : l = LinkMode.gigabit := by
  have hs : l.speed = 1000 := h.gige.1 (h'.gige.2 rfl)
  have hd : l.fullDuplex = true := h.duplex.1 (h'.duplex.2 rfl)
  cases l
  cases hs
  cases hd
  rfl

theorem LinkMode.Shown.congr {l : LinkMode} {c c' : BitVec 32}
    (h : ∀ k ∈ [netCfgGigeEnBit, netCfgSpeed100Bit, netCfgFullDuplexBit], HasFlag c' k ↔ HasFlag c k) :
    l.Shown c' ↔ l.Shown c := by
  have hg := h netCfgGigeEnBit (by simp)
  have hs := h netCfgSpeed100Bit (by simp)
  have hd := h netCfgFullDuplexBit (by simp)
  exact ⟨fun hl => ⟨hg.symm.trans hl.gige, hs.symm.trans hl.speed100, hd.symm.trans hl.duplex⟩,
    fun hl => ⟨hg.trans hl.gige, hs.trans hl.speed100, hd.trans hl.duplex⟩⟩

/-- `cgem_rx_filter` changes the filter bits only. -/
theorem hasFlag_rxFilter {m : Mac} {flags : BitVec 32} {mcast : List EtherAddr} {k : Nat}
    (hk : ¬HasFlag cgemNetCfgFilterMask k) :
    HasFlag (cgemRxFilter m flags mcast).netCfg k ↔ HasFlag m.netCfgShadow k := by
  have hbits : ∀ c n e, ¬HasFlag (filterBits c n e) k := by
    intro c n e hf
    unfold cgemNetCfgFilterMask at hk
    unfold filterBits at hf
    simp only [hasFlag_or] at hk hf
    grind [not_hasFlag_zero]
  exact hasFlag_or.trans ((or_iff_left (hbits _ _ _)).trans (hasFlag_and_not.trans (and_iff_left hk)))

theorem shown_rxFilter {l : LinkMode} {m : Mac} {flags : BitVec 32} {mcast : List EtherAddr}
    (hm : m.netCfg = m.netCfgShadow) : l.Shown (cgemRxFilter m flags mcast).netCfg ↔ l.Shown m.netCfg := by
  apply LinkMode.Shown.congr
  intro k hk
  rw [hm]
  exact hasFlag_rxFilter ((by decide : ∀ k ∈ [netCfgGigeEnBit, netCfgSpeed100Bit, netCfgFullDuplexBit],
    ¬HasFlag cgemNetCfgFilterMask k) k hk)

/-! ## Over a run -/

namespace Port

/-- After module load: the mode is resolved and set, and the interface is attached. -/
def loaded (rxbufs : Int) (m : Mac) (l : LinkMode) (cfgKva : Bool) : Port :=
  attached rxbufs (modeventSpeed m l) cfgKva

/-- On a running interface, NET_CFG and CLKGEN say the mode. -/
structure SpeedOk (l : LinkMode) (p : Port) : Prop where
  shown : p.serv.running = true → l.Shown p.mac.netCfg
  overrides : p.serv.running = true → Overrides p.mac.clkgen l.speed

/-- The step brings the interface up. -/
def BringsUp (p : Port) : PortAct → Prop
  | .init _ => p.serv.running = false
  | .ifflags flags _ => HasFlag flags iffUpBit ∧ p.serv.running = false
  | _ => False

/-- What holds all along: CLKGEN is right from the start, NET_CFG while the interface is running. -/
structure SpeedInv (l : LinkMode) (p : Port) : Prop where
  synced : p.Synced
  shown : p.serv.running = true → l.Shown p.mac.netCfg
  overrides : Overrides p.mac.clkgen l.speed

variable {p p' : Port} {a : PortAct} {l : LinkMode}

theorem SpeedInv.ok (h : p.SpeedInv l) : p.SpeedOk l := ⟨h.shown, fun _ => h.overrides⟩

theorem speedInv_loaded (rxbufs : Int) (m : Mac) (l : LinkMode) (cfgKva : Bool) :
    (loaded rxbufs m l cfgKva).SpeedInv l :=
  ⟨synced_attached rxbufs _ cfgKva, fun hr => absurd hr Bool.noConfusion, overrides_overrideClkgen m.clkgen l.speed⟩

/-- The tick copies what NET_CFG says to CLKGEN. -/
theorem tick_overrides (h : p.SpeedInv l) (bmsr : Option (BitVec 16)) : Overrides (p.tick bmsr).mac.clkgen l.speed := by
  have hup : p.serv.running = true → Overrides (rp1ethUpdateSpeed p.mac p.cfgKva).clkgen l.speed := by
    intro hr
    unfold rp1ethUpdateSpeed
    split
    · exact h.overrides
    · dsimp only
      rw [(h.shown hr).spdVal_netCfgSpeed]
      exact overrides_overrideClkgen _ _
  unfold tick
  dsimp only
  split
  · exact h.overrides
  · next hr =>
    split
    · split
      · exact hup (by simpa using hr)
      · exact h.overrides
    · exact h.overrides

/-- A step that brings the interface up only in the mode of `cgem_config` keeps the invariant. -/
theorem speedInv_step (h : p.SpeedInv l) (hk : p.BringsUp a → l = LinkMode.gigabit) (hst : Step p a p') :
    p'.SpeedInv l := by
  have hs := synced_step h.synced hst
  cases hst with
  | up hr ht =>
    cases hk hr
    exact ⟨hs, fun _ => shown_config _ _, h.overrides⟩
  | upNot hr => exact h
  | flagsUp hu hr ht =>
    cases hk ⟨hu, hr⟩
    exact ⟨hs, fun _ => shown_config _ _, h.overrides⟩
  | flagsFilter hu hr hl hc => exact ⟨hs, fun _ => (shown_rxFilter h.synced.netCfg).2 (h.shown hr), h.overrides⟩
  | flagsKept hu hr hl hc => exact ⟨hs, h.shown, h.overrides⟩
  | flagsDown hu hr ht => exact ⟨hs, fun hr' => absurd (ht.running.symm.trans hr') (by simp [hr]), h.overrides⟩
  | flagsDownNot hu hr => exact ⟨hs, h.shown, h.overrides⟩
  | multi hr hl => exact ⟨hs, fun _ => (shown_rxFilter h.synced.netCfg).2 (h.shown hr), h.overrides⟩
  | multiNot hr => exact ⟨hs, h.shown, h.overrides⟩
  | ifcap ht =>
    rename_i reqcap sv
    refine ⟨hs, fun hr => ?_, ?_⟩
    · refine (LinkMode.Shown.congr fun k hmem => ?_).2 (h.shown (ht.running.symm.trans hr))
      exact (sioCSIFCap_netCfg reqcap h.synced.netCfg).2 k
        ((by decide : ∀ k ∈ [netCfgGigeEnBit, netCfgSpeed100Bit, netCfgFullDuplexBit],
          ¬HasFlag cgemNetCfgRxChksumOffldEn k) k hmem)
    · rw [sioCSIFCap_eq]
      exact h.overrides
  | tick hl =>
    rename_i bmsr
    refine ⟨hs, ?_, tick_overrides h bmsr⟩
    rw [tick_eq]
    exact h.shown
  | serv hst hr =>
    refine ⟨hs, ?_, ?_⟩
    · rw [served_eq]
      exact fun hr' => h.shown (hr.symm.trans hr')
    · rw [served_eq]
      exact h.overrides

/-- An interface that is brought up says the mode of `cgem_config`. -/
theorem eq_gigabit_of_bringsUp (hst : Step p a p') (hb : p.BringsUp a) (hok : p'.SpeedOk l) : l = LinkMode.gigabit := by
  cases hst with
  | up hr ht => exact (hok.shown (ht.up hr)).eq_gigabit (shown_config _ _)
  | upNot hr => exact absurd (hr.symm.trans hb) Bool.noConfusion
  | flagsUp hu hr ht => exact (hok.shown (ht.up hr)).eq_gigabit (shown_config _ _)
  | flagsFilter hu hr hl hc => exact absurd (hr.symm.trans hb.2) Bool.noConfusion
  | flagsKept hu hr hl hc => exact absurd (hr.symm.trans hb.2) Bool.noConfusion
  | flagsDown hu hr ht => exact absurd hb.1 hu
  | flagsDownNot hu hr => exact absurd hb.1 hu
  | _ => exact hb.elim

theorem resolveMode_eq_gigabit {gbcr gbsr anlpar : BitVec 16} :
    resolveMode gbcr gbsr anlpar = LinkMode.gigabit ↔
      HasFlag gbcr gbcrAdv1000fdBit ∧ HasFlag gbsr gbsrLp1000fdBit := by
  unfold resolveMode
  split
  · next h => exact iff_of_true rfl h
  · next h =>
    refine iff_of_false ?_ h
    split
    · decide
    · repeat' split
      all_goals decide

/-- **The MAC follows the negotiated speed exactly where that is 1000 Mbit/s in full duplex, or is never used.** For
all that the PHY negotiated at module load and every order of the ioctls, of `cgem_init`, of the tick and of the steps
of servicing: on a running interface the speed bits of NET_CFG, the duplex bit and the override of CLKGEN are those of
the mode resolved, if and only if the interface is brought up only after both sides offered 1000 Mbit/s in full
duplex. -/
theorem speed_iff (gbcr gbsr anlpar : BitVec 16) (rxbufs : Int) (m : Mac) (cfgKva : Bool) (as : List PortAct) :
    AllStates step (SpeedOk (resolveMode gbcr gbsr anlpar)) (loaded rxbufs m (resolveMode gbcr gbsr anlpar) cfgKva) as ↔
      AllSteps step (fun p a => p.BringsUp a → HasFlag gbcr gbcrAdv1000fdBit ∧ HasFlag gbsr gbsrLp1000fdBit)
        (loaded rxbufs m (resolveMode gbcr gbsr anlpar) cfgKva) as := by
  refine allStates_iff (I := SpeedInv (resolveMode gbcr gbsr anlpar)) ?_ ?_ ?_ (speedInv_loaded rxbufs m _ cfgKva)
  · intro p a p' h hk hst
    exact speedInv_step h (fun hb => resolveMode_eq_gigabit.2 (hk hb)) (step_cases hst)
  · intro p h
    exact h.ok
  · intro p a p' _ hst hok hb
    exact resolveMode_eq_gigabit.1 (eq_gigabit_of_bringsUp (step_cases hst) hb hok)

/-- The partner offers 100 Mbit/s in full duplex, and the interface is brought up. -/
theorem speed_100 : ∃ t, resolveMode 0x0200 0 0x0100 = ⟨100, true⟩ ∧
    run step (loaded 0 Mac.zero (resolveMode 0x0200 0 0x0100) true) [.ifflags 0x8803 []] = some t ∧
      t.serv.running = true ∧ LinkMode.gigabit.Shown t.mac.netCfg ∧ ¬t.SpeedOk (resolveMode 0x0200 0 0x0100) := by
  refine ⟨_, by decide, rfl, rfl, shown_config _ _, ?_⟩
  intro h
  exact absurd ((h.shown rfl).eq_gigabit (shown_config _ _)) (by decide)

end Port

end Eth
