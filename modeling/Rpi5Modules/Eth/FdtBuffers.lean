import Rpi5Modules.Eth.FdtSearch

/-!
# The arrays of the device tree's strings

`OF_getprop` copies at most 255 bytes of a `compatible` property to `buf`, and at most 31 of `phy-mode` to `phy_mode`,
but the NUL goes behind the whole property. A call stays in `buf` exactly if the property has at most 255 bytes
(`compatCall_inside_iff`), so a run does exactly if the properties it looks at are short enough (`metadata_inside_iff`).
-/

namespace Eth

open BufProg CString Forest

/-- The call stays in the 256 bytes of `buf`. -/
structure CompatCall.Inside (c : CompatCall) : Prop where
  writes : ∀ i ∈ c.writes, i < 256
  reads : ∀ i ∈ c.reads, i < 256

/-- All calls of the run do, and it writes to the 32 bytes of `phy_mode` only. -/
structure MetadataRun.Inside (r : MetadataRun) : Prop where
  calls : ∀ c ∈ r.calls, c.Inside
  phyMode : ∀ i ∈ r.phyModeWrites, i < 32

/-- The `phy-mode` property of a node; one that is missing is like one that is empty. -/
def DeviceTree.phyMode (t : DeviceTree) (node : Phandle) : List UInt8 := (t.prop node "phy-mode").getD []

/-- The properties that the search looks at are short enough: `compatible` of the nodes up to the controller's, and
`phy-mode` of that. -/
structure DeviceTree.GemFits (t : DeviceTree) : Prop where
  compatible : ∀ node ∈ upTo (t.hasName rp1EthCompatPrimary) t.nodes, (t.compatible node).length ≤ 255
  phyMode : ∀ gem, t.nodes.find? (t.hasName rp1EthCompatPrimary) = some gem → (t.phyMode gem).length ≤ 31

/-- `compatible` of the root is short enough, if there is a root, and the rest if the root is a Pi 5. -/
def DeviceTree.Fits (t : DeviceTree) : Prop :=
  t.root ≠ 0 → (t.compatible t.root).length ≤ 255 ∧
    (t.hasName rpi5Compat5b t.root ∨ t.hasName rpi5CompatCm5 t.root → t.GemFits)

variable {t : DeviceTree} {stack : Stack} {node gem : Phandle} {name : List UInt8} {fuel : Nat} {sc : FdtMetadata}
  {calls : List CompatCall}

/-! ## Calls -/

/-- A copy that is cut to the array, and the NUL behind the whole property. -/
theorem writes_lt_iff (len size : Nat) : (∀ i ∈ List.range (min len size) ++ [len], i < size + 1) ↔ len ≤ size := by
  constructor
  · intro h
    exact Nat.le_of_lt_succ (h len (List.mem_append_right _ List.mem_cons_self))
  · intro h i hi
    rw [List.mem_append, List.mem_range, List.mem_singleton] at hi
    omega

/-- **A call stays in `buf` exactly if the property has at most 255 bytes.** -/
theorem compatCall_inside_iff (t : DeviceTree) (stack : Stack) (node : Phandle) (hne : name ≠ []) (h0 : 0 ∉ name) :
    (compatCall t stack name node).Inside ↔ (t.compatible node).length ≤ 255 := by
  constructor
  · intro hin
    by_cases hnil : t.compatible node = []
    · rw [hnil]
      exact Nat.zero_le _
    · have hwrites := hin.writes
      rw [compatCall_of_ne_nil hnil] at hwrites
      exact (writes_lt_iff _ 255).1 hwrites
  · intro hlen
    refine ⟨?_, (compatCall_spec stack hne h0 hlen).2⟩
    by_cases hnil : t.compatible node = []
    · rw [compatCall_of_nil hnil]
      exact fun i hi => absurd hi List.not_mem_nil
    · rw [compatCall_of_ne_nil hnil]
      exact (writes_lt_iff _ 255).2 hlen

theorem compat5b_name : rpi5Compat5b ≠ [] ∧ 0 ∉ rpi5Compat5b := by decide

theorem compatCm5_name : rpi5CompatCm5 ≠ [] ∧ 0 ∉ rpi5CompatCm5 := by decide

theorem compatPrimary_name : rp1EthCompatPrimary ≠ [] ∧ 0 ∉ rp1EthCompatPrimary := by decide

/-- The calls for the root. -/
theorem rootCalls_inside_iff (t : DeviceTree) (stack : Stack) :
    (∀ c ∈ (rootCalls t stack).1, c.Inside) ↔ (t.compatible t.root).length ≤ 255 := by
  have h5b := compatCall_inside_iff t stack t.root compat5b_name.1 compat5b_name.2
  have hcm5 := compatCall_inside_iff t stack t.root compatCm5_name.1 compatCm5_name.2
  unfold rootCalls
  by_cases hc : (compatCall t stack rpi5Compat5b t.root).result = true
  · rw [if_pos hc]
    simp only [List.forall_mem_singleton, h5b]
  · rw [if_neg hc]
    simp only [List.forall_mem_cons, List.not_mem_nil, false_imp_iff, implies_true, h5b, hcm5, and_true, and_self]

theorem rootCalls_isPi5 (stack : Stack) (hlen : (t.compatible t.root).length ≤ 255) : (rootCalls t stack).2 = true ↔
    t.hasName rpi5Compat5b t.root ∨ t.hasName rpi5CompatCm5 t.root := by
  have h5b := (compatCall_spec stack compat5b_name.1 compat5b_name.2 hlen).1
  have hcm5 := (compatCall_spec stack compatCm5_name.1 compatCm5_name.2 hlen).1
  unfold rootCalls
  rw [← h5b, ← hcm5]
  by_cases hc : (compatCall t stack rpi5Compat5b t.root).result = true
  · rw [if_pos hc]
    exact iff_of_true rfl (.inl hc)
  · rw [if_neg hc]
    exact (or_iff_right hc).symm

/-- The calls of the search. -/
theorem asked_inside_iff (t : DeviceTree) (stack : Stack) :
    (∀ c ∈ (upTo (fun node => (compatCall t stack rp1EthCompatPrimary node).result) t.nodes).map
      (compatCall t stack rp1EthCompatPrimary), c.Inside) ↔
    ∀ node ∈ upTo (t.hasName rp1EthCompatPrimary) t.nodes, (t.compatible node).length ≤ 255 := by
  rw [List.forall_mem_map, ← forall_upTo_congr (P := fun node => (t.compatible node).length ≤ 255) fun node hlen =>
    (compatCall_spec stack compatPrimary_name.1 compatPrimary_name.2 hlen).1]
  exact forall₂_congr fun node _ => compatCall_inside_iff t stack node compatPrimary_name.1 compatPrimary_name.2

/-! ## The run -/

/-- What is written to `phy_mode`. -/
theorem readPhyMode_writes_iff (sc : FdtMetadata) :
    (∀ i ∈ (sc.readPhyMode t gem).2, i < 32) ↔ (t.phyMode gem).length ≤ 31 := by
  unfold FdtMetadata.readPhyMode DeviceTree.phyMode
  cases hp : t.prop gem "phy-mode" with
  | none => exact iff_of_true (show ∀ i ∈ [0], i < 32 by decide) (Nat.zero_le _)
  | some p =>
    rw [Option.getD_some]
    by_cases hp0 : p = []
    · subst hp0
      exact iff_of_true (show ∀ i ∈ [0], i < 32 by decide) (Nat.zero_le _)
    · have hpos : (p.length : Int) > 0 := Int.natCast_pos.2 (List.length_pos_iff.2 hp0)
      have hwrites := writes_lt_iff p.length 31
      simp only [ofGetprop, hpos, if_true, Int.toNat_natCast]
      exact hwrites

theorem readGemNode_inside_iff : (readGemNode t gem sc calls).Inside ↔
    (∀ c ∈ calls, c.Inside) ∧ (t.phyMode gem).length ≤ 31 := by
  have hfields : (readGemNode t gem sc calls).calls = calls ∧
      (readGemNode t gem sc calls).phyModeWrites = ((sc.readMac t gem).readPhyMode t gem).2 := by
    unfold readGemNode
    dsimp only
    split
    · exact ⟨rfl, rfl⟩
    · exact ⟨rfl, rfl⟩
  rw [← readPhyMode_writes_iff (sc.readMac t gem), ← hfields.2]
  exact ⟨fun h => ⟨hfields.1 ▸ h.calls, h.phyMode⟩, fun h => ⟨hfields.1.symm ▸ h.1, h.2⟩⟩

/-- A run that stops before the node of the controller writes nothing to `phy_mode`. -/
theorem inside_of_error {error : Int} : (⟨error, sc, calls, []⟩ : MetadataRun).Inside ↔ ∀ c ∈ calls, c.Inside :=
  ⟨fun h => h.calls, fun h => ⟨h, fun _ hi => absurd hi List.not_mem_nil⟩⟩

/-- The calls before the search count. -/
theorem calls_inside_of_readFound {found : Phandle × List Phandle} (h : (readFound t stack sc calls found).Inside) :
    ∀ c ∈ calls, c.Inside := by
  unfold readFound at h
  dsimp only at h
  split at h
  · exact (List.forall_mem_append.1 (inside_of_error.1 h)).1
  · exact (List.forall_mem_append.1 (readGemNode_inside_iff.1 h).1).1

/-- The part behind the search stays in the arrays exactly if what it looks at is short enough. -/
theorem readFound_inside_iff (hroot : t.root ≠ 0) (hcalls : ∀ c ∈ calls, c.Inside) : (readFound t stack sc calls
    (firstMatch (fun node => (compatCall t stack rp1EthCompatPrimary node).result) 0 t.nodes)).Inside ↔ t.GemFits := by
  have hasked := asked_inside_iff t stack
  generalize hp : (fun node => (compatCall t stack rp1EthCompatPrimary node).result) = p at hasked ⊢
  have hall : (∀ c ∈ calls ++ (upTo p t.nodes).map (compatCall t stack rp1EthCompatPrimary), c.Inside) ↔
      ∀ node ∈ upTo (t.hasName rp1EthCompatPrimary) t.nodes, (t.compatible node).length ≤ 255 := by
    rw [List.forall_mem_append, ← hasked]
    exact and_iff_right hcalls
  have hmatch : (∀ node ∈ upTo (t.hasName rp1EthCompatPrimary) t.nodes, (t.compatible node).length ≤ 255) →
      t.nodes.find? p = t.nodes.find? (t.hasName rp1EthCompatPrimary) := by
    intro hlen
    subst hp
    exact (upTo_congr fun node hmem =>
      (compatCall_spec stack compatPrimary_name.1 compatPrimary_name.2 (hlen node hmem)).1).2
  unfold readFound firstMatch
  cases hfind : t.nodes.find? p with
  | none =>
    dsimp only [Option.getD_none]
    rw [if_pos rfl, inside_of_error, hall]
    exact ⟨fun hlen => ⟨hlen, fun gem hgem => by rw [← hmatch hlen, hfind] at hgem; cases hgem⟩, fun h => h.compatible⟩
  | some gem =>
    have hgem0 : gem ≠ 0 := by
      rcases List.mem_cons.1 (List.mem_of_find?_eq_some hfind) with rfl | hmem
      · exact hroot
      · exact t.denotes.ne_zero gem hmem
    dsimp only [Option.getD_some]
    rw [if_neg hgem0, readGemNode_inside_iff, hall]
    constructor
    · rintro ⟨hlen, hmode⟩
      refine ⟨hlen, fun gem' hgem' => ?_⟩
      rw [← hmatch hlen, hfind] at hgem'
      cases hgem'
      exact hmode
    · intro h
      exact ⟨h.compatible, h.phyMode gem (by rw [← hmatch h.compatible, hfind])⟩

/-- A root whose property is too long is asked first. -/
theorem not_inside_of_long_root (stack : Stack) (sc : FdtMetadata) (hroot : t.root ≠ 0) (hf : 2 * t.nodes.length < fuel)
    (hlen : ¬(t.compatible t.root).length ≤ 255) :
    ∃ r, rp1EthFdtReadMetadata t stack fuel sc = some r ∧ ¬r.Inside := by
  have hcalls : ¬∀ c ∈ (rootCalls t stack).1, c.Inside := mt (rootCalls_inside_iff t stack).1 hlen
  unfold rp1EthFdtReadMetadata
  rw [if_neg hroot]
  dsimp only
  by_cases hpi5 : (rootCalls t stack).2 = true
  · rw [if_pos hpi5, findCompat_eq hf]
    exact ⟨_, rfl, fun h => hcalls (calls_inside_of_readFound h)⟩
  · rw [if_neg hpi5]
    exact ⟨_, rfl, fun h => hcalls (inside_of_error.1 h)⟩

/-- One whose property is short enough is asked whether it is a Pi 5. -/
theorem inside_iff_of_short_root (stack : Stack) (sc : FdtMetadata) (hroot : t.root ≠ 0)
    (hf : 2 * t.nodes.length < fuel) (hlen : (t.compatible t.root).length ≤ 255) :
    ∃ r, rp1EthFdtReadMetadata t stack fuel sc = some r ∧
      (r.Inside ↔ (t.hasName rpi5Compat5b t.root ∨ t.hasName rpi5CompatCm5 t.root → t.GemFits)) := by
  have hcalls : ∀ c ∈ (rootCalls t stack).1, c.Inside := (rootCalls_inside_iff t stack).2 hlen
  unfold rp1EthFdtReadMetadata
  rw [if_neg hroot, ← rootCalls_isPi5 stack hlen]
  dsimp only
  by_cases hpi5 : (rootCalls t stack).2 = true
  · rw [if_pos hpi5, findCompat_eq hf]
    refine ⟨_, rfl, ?_⟩
    rw [readFound_inside_iff hroot hcalls]
    exact ⟨fun h _ => h, fun h => h hpi5⟩
  · rw [if_neg hpi5]
    exact ⟨_, rfl, iff_of_true (inside_of_error.2 hcalls) fun h => absurd h hpi5⟩

/-- **A run stays in its arrays exactly if the properties are short enough.** For every device tree, and whatever is on
the stack: all accesses of `rp1_eth_node_is_compatible` are to the 256 bytes of `buf`, and all writes of
`rp1_eth_fdt_read_metadata` to the 32 bytes of `phy_mode`, if and only if there is no root, or `compatible` of the root
has at most 255 bytes and, if it is a Pi 5, so has that of each node up to the controller's, whose `phy-mode` has at
most 31. -/
theorem metadata_inside_iff (t : DeviceTree) (stack : Stack) (sc : FdtMetadata) (rest : Nat) :
    ∃ r, rp1EthFdtReadMetadata t stack (2 * t.nodes.length + 1 + rest) sc = some r ∧ (r.Inside ↔ t.Fits) := by
  have hf : 2 * t.nodes.length < 2 * t.nodes.length + 1 + rest := by omega
  by_cases hroot : t.root = 0
  · refine ⟨⟨enodev, sc, [], []⟩, if_pos hroot, ?_⟩
    exact iff_of_true (inside_of_error.2 fun c hc => absurd hc List.not_mem_nil) fun h => absurd hroot h
  by_cases hlen : (t.compatible t.root).length ≤ 255
  · obtain ⟨r, hrun, hinside⟩ := inside_iff_of_short_root stack sc hroot hf hlen
    refine ⟨r, hrun, hinside.trans ?_⟩
    exact ⟨fun h _ => ⟨hlen, h⟩, fun h => (h hroot).2⟩
  · obtain ⟨r, hrun, hnot⟩ := not_inside_of_long_root stack sc hroot hf hlen
    exact ⟨r, hrun, iff_of_false hnot fun h => hlen (h hroot).1⟩

/-- A root with a property of 256 bytes: the NUL goes behind `buf`. -/
theorem metadata_long_root : ∃ r, rp1EthFdtReadMetadata (smallTree (List.replicate 256 0x61) []) (fun _ _ _ => 0) 5
    ⟨[], fun _ => 0, 0, 0, 0⟩ = some r ∧ ¬r.Inside :=
  not_inside_of_long_root _ _ (by decide) (by decide) (by decide +kernel)

end Eth
