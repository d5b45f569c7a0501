import Mathlib.Data.List.Basic
import Rpi5Modules.Eth.RxFilter

/-!
# The multicast hash

Bit `i` of the hash of an address is the parity of its bits `i`, `i + 6`, …. HASH_TOP and HASH_BOT are one word of 64
bits, and a frame to a group passes the filter where the bit of its hash is set.

- `cgemMacHash_xor`: the hash is linear;
- `hasFlag_word_foldl`: the word is the set of the hashes of the list;
- `cgem_rx_filter_hash`: and so are the registers after `cgem_rx_filter`.
-/

namespace Eth

open Flags

/-! ## Linearity -/

/-- The parities of two addresses add up, bit by bit. -/
theorem cgemMacHashBit_xor (a b : EtherAddr) (h g : BitVec 32) (i : Nat) :
    cgemMacHashBit (a ^^^ b) (h ^^^ g) i = cgemMacHashBit a h i ^^^ cgemMacHashBit b g i := by
  apply List.foldl_hom₂ (List.range' i 8 6) (fun h g : BitVec 32 => h ^^^ g) _ _ _ h g
  intro h g j
  simp only [BitVec.getLsbD_xor]
  have hcancel : h ^^^ BitVec.twoPow 32 i ^^^ (g ^^^ BitVec.twoPow 32 i) = h ^^^ g := by
    rw [BitVec.xor_comm g, BitVec.xor_assoc, ← BitVec.xor_assoc (BitVec.twoPow 32 i), BitVec.xor_self, BitVec.zero_xor]
  cases a.getLsbD j <;> cases b.getLsbD j
  · rfl
  · exact (BitVec.xor_assoc h g _).symm
  · change h ^^^ BitVec.twoPow 32 i ^^^ g = h ^^^ g ^^^ BitVec.twoPow 32 i
    rw [BitVec.xor_assoc, BitVec.xor_comm _ g, ← BitVec.xor_assoc]
  · exact hcancel

theorem cgemMacHash_xor (a b : EtherAddr) : cgemMacHash (a ^^^ b) = cgemMacHash a ^^^ cgemMacHash b := by
  apply List.foldl_hom₂ (List.range 6) (fun h g : BitVec 32 => h ^^^ g) _ _ _ 0 0
  intro h g i
  exact (cgemMacHashBit_xor a b h g i).symm

/-! ## The word of the hashes -/

/-- HASH_TOP:HASH_BOT. -/
def Hashes.word (h : Hashes) : BitVec 64 := h.top ++ h.bot

theorem hasFlag_word {h : Hashes} {k : Nat} :
    HasFlag h.word k ↔ if k < 32 then HasFlag h.bot k else HasFlag h.top (k - 32) := by
  unfold Hashes.word
  simp only [hasFlag_iff]
  rw [BitVec.getLsbD_append]
  by_cases hk : k < 32 <;> simp [hk]

theorem Hashes.word_inj {h g : Hashes} (hw : h.word = g.word) : h = g := by
  have hbits : ∀ k, HasFlag h.word k ↔ HasFlag g.word k := fun k => by rw [hw]
  have hbot : h.bot = g.bot := by
    apply eq_of_hasFlag
    intro k
    by_cases hk : k < 32
    · simpa only [hasFlag_word, hk, if_true] using hbits k
    · exact ⟨fun hf => absurd hf.lt hk, fun hf => absurd hf.lt hk⟩
  have htop : h.top = g.top := by
    apply eq_of_hasFlag
    intro k
    have hk := hbits (32 + k)
    rw [hasFlag_word, hasFlag_word, if_neg (by omega), if_neg (by omega), Nat.add_sub_cancel_left] at hk
    exact hk
  cases h
  cases g
  cases hbot
  cases htop
  rfl

/-- One address sets the bit of its hash, in whichever register it is. -/
theorem hasFlag_word_cgemHashMaddr {h : Hashes} {a : EtherAddr} {k : Nat} :
    HasFlag (cgemHashMaddr h a).word k ↔ HasFlag h.word k ∨ (cgemMacHash a).toNat = k := by
  have hlt := cgemMacHash_lt a
  unfold cgemHashMaddr
  generalize (cgemMacHash a).toNat = i at hlt
  dsimp only
  split
  · rename_i hi
    simp only [hasFlag_word, hasFlag_or, hasFlag_twoPow]
    by_cases hk : k < 32
    · rw [if_pos hk, if_pos hk]
      exact ⟨.inl, fun hf => hf.elim id fun hik => absurd hik (by omega)⟩
    · rw [if_neg hk, if_neg hk]
      exact or_congr_right (by omega)
  · rename_i hi
    simp only [hasFlag_word, hasFlag_or, hasFlag_twoPow]
    by_cases hk : k < 32
    · rw [if_pos hk, if_pos hk]
      exact or_congr_right (and_iff_left hk)
    · rw [if_neg hk, if_neg hk]
      exact ⟨.inl, fun hf => hf.elim id fun hik => absurd hik (by omega)⟩

/-- A list sets the bits of its hashes. -/
theorem hasFlag_word_foldl {h : Hashes} {l : List EtherAddr} {k : Nat} :
    HasFlag (l.foldl cgemHashMaddr h).word k ↔ HasFlag h.word k ∨ ∃ a ∈ l, (cgemMacHash a).toNat = k := by
  induction l generalizing h with
  | nil => simp
  | cons a l ih =>
    rw [List.foldl_cons, ih, hasFlag_word_cgemHashMaddr]
    simp [or_assoc]

/-- Nothing but the set of the addresses counts. -/
theorem foldl_cgemHashMaddr_congr {l l' : List EtherAddr} (hl : ∀ a, a ∈ l' ↔ a ∈ l) (h : Hashes) :
    l'.foldl cgemHashMaddr h = l.foldl cgemHashMaddr h := by
  refine Hashes.word_inj (eq_of_hasFlag fun k => ?_)
  rw [hasFlag_word_foldl, hasFlag_word_foldl]
  simp only [hl]

/-! ## The registers -/

/-- The MAC takes a frame to a group: the hash is enabled and the bit of the destination is set. -/
def Mac.HashMatch (m : Mac) (dst : EtherAddr) : Prop :=
  HasFlag m.netCfg netCfgMultiHashEnBit ∧ HasFlag (Hashes.word ⟨m.hashTop, m.hashBot⟩) (cgemMacHash dst).toNat

/-- Without IFF_PROMISC and IFF_ALLMULTI the hash is that of the list. -/
theorem rxFilter_list {flags : BitVec 32} (hp : ¬HasFlag flags iffPromiscBit) (ha : ¬HasFlag flags iffAllmultiBit)
    (mcast : List EtherAddr) : (rxFilter flags mcast).hashes = mcast.foldl cgemHashMaddr ⟨0, 0⟩ ∧
      ((rxFilter flags mcast).multiHashEn = true ↔ mcast ≠ []) := by
  have hz := foldl_cgemHashMaddr_zero (l := mcast)
  unfold Hashes.Zero at hz
  unfold rxFilter
  rw [if_neg hp]
  simp only [ha, if_false, true_and, decide_eq_true_eq]
  rw [← not_and_or, hz]

/-- **The multicast hash filter is the set of the hashes of the list.** For every list, with IFF_PROMISC and
IFF_ALLMULTI off: HASH_BOT has bit `k` and HASH_TOP bit `k` exactly if an address of the list has the hash `k`, or
`32 + k`; a list with the same addresses in another order or number makes the same registers; MULTI_HASH_EN is set
exactly if the list is not empty; and every address of the list passes the filter. The hash is below 64 and linear. -/
theorem cgem_rx_filter_hash (m : Mac) (flags : BitVec 32) (mcast : List EtherAddr)
    (hp : ¬HasFlag flags iffPromiscBit) (ha : ¬HasFlag flags iffAllmultiBit) :
    (∀ k, k < 32 → (HasFlag (cgemRxFilter m flags mcast).hashBot k ↔ ∃ a ∈ mcast, (cgemMacHash a).toNat = k)) ∧
      (∀ k, k < 32 → (HasFlag (cgemRxFilter m flags mcast).hashTop k ↔ ∃ a ∈ mcast, (cgemMacHash a).toNat = 32 + k)) ∧
      (∀ mcast' : List EtherAddr, (∀ a, a ∈ mcast' ↔ a ∈ mcast) →
        cgemRxFilter m flags mcast' = cgemRxFilter m flags mcast) ∧
      (HasFlag (cgemRxFilter m flags mcast).netCfg netCfgMultiHashEnBit ↔ mcast ≠ []) ∧
      (∀ a ∈ mcast, (cgemRxFilter m flags mcast).HashMatch a) ∧
      (∀ a, (cgemMacHash a).toNat < 64) ∧ ∀ a b, cgemMacHash (a ^^^ b) = cgemMacHash a ^^^ cgemMacHash b := by
  obtain ⟨hhash, hen⟩ := rxFilter_list hp ha mcast
  have hfilter := filter_rxFilter m flags mcast
  have hregs : (⟨(cgemRxFilter m flags mcast).hashTop, (cgemRxFilter m flags mcast).hashBot⟩ : Hashes) =
      mcast.foldl cgemHashMaddr ⟨0, 0⟩ := (congrArg RxFilter.hashes hfilter).trans hhash
  have hword : ∀ k,
      HasFlag (Hashes.word ⟨(cgemRxFilter m flags mcast).hashTop, (cgemRxFilter m flags mcast).hashBot⟩) k ↔
        ∃ a ∈ mcast, (cgemMacHash a).toNat = k := by
    intro k
    rw [hregs, hasFlag_word_foldl]
    exact or_iff_right not_hasFlag_zero
  have henabled : HasFlag (cgemRxFilter m flags mcast).netCfg netCfgMultiHashEnBit ↔ mcast ≠ [] := by
    rw [← hen, ← congrArg RxFilter.multiHashEn hfilter]
    exact decide_eq_true_iff.symm
  refine ⟨?_, ?_, ?_, henabled, ?_, cgemMacHash_lt, cgemMacHash_xor⟩
  · intro k hk
    rw [← hword, hasFlag_word, if_pos hk]
  · intro k hk
    rw [← hword, hasFlag_word, if_neg (by omega), Nat.add_sub_cancel_left]
  · intro mcast' hl
    have hsame : rxFilter flags mcast' = rxFilter flags mcast := by
      unfold rxFilter
      rw [foldl_cgemHashMaddr_congr hl]
    unfold cgemRxFilter
    rw [hsame]
  · intro a hmem
    exact ⟨henabled.2 (List.ne_nil_of_mem hmem), (hword _).2 ⟨a, hmem, rfl⟩⟩

/-- All-hosts and mDNS. -/
theorem cgem_rx_filter_hash_two : (cgemRxFilter Mac.zero 0x8803 [0x0100005e0001, 0xfb00005e0001]).HashMatch
    0xfb00005e0001 :=
  (cgem_rx_filter_hash Mac.zero 0x8803 [0x0100005e0001, 0xfb00005e0001] (by decide) (by decide)).2.2.2.2.1 _ (by simp)

end Eth
