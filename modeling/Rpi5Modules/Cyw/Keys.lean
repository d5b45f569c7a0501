import Rpi5Modules.Cyw.Chanspec
import Rpi5Modules.Lib.AddressedStore
import Rpi5Modules.Lib.Transition

/-!
# Keys

net80211 has a key numbered by `cyw_key_alloc`, installed by `cyw_key_set` and removed by `cyw_key_delete`, the last
two by the "wsec_key" IOVAR. The firmware keeps an installed key under the address and the index in the request, the
group keys under the address 0 (`AddressedStore`).

- `cyw_key_set` fills in the peer's address for a pairwise key, `cyw_key_delete` for none: it addresses the key it is
  to delete exactly if that was installed under the address 0 (`cywKeyDelete_addr_iff`);
- the firmware holds the keys set and not deleted, and no others, exactly as long as each call finds the slot it
  addresses free or its own key's, and that key nowhere else (`key_store_iff`); a deletion of an installed key does so
  exactly if that has the address 0 (`slotOk_delete_iff`).
-/

namespace Cyw

open AddressedStore Function Transition

/-! ## Keys of net80211 -/

/-- `wk_cipher->ic_cipher`. -/
inductive Cipher where
  | wep
  | tkip
  | aesCcm
  | other (n : UInt32)
deriving DecidableEq

/-- A `struct ieee80211_key *`, as the difference `k - vap->iv_nw_keys`. -/
abbrev KeyPtr := Int

/-- `struct ieee80211_key`; `group` is its flag IEEE80211_KEY_GROUP, `key` the `wk_keylen` bytes of `wk_key`, `keyrsc`
the entry of `wk_keyrsc` for frames without QoS. -/
structure Key where
  ptr : KeyPtr
  group : Bool
  cipher : Option Cipher
  key : List UInt8
  keyrsc : UInt64
  macaddr : Bssid

/-- `cyw_key_alloc(vap, k, keyix, rxkeyix)`: what it stores to `*keyix` and `*rxkeyix`. -/
def cywKeyAlloc (k : Key) : UInt16 × UInt16 :=
  if k.group then (UInt16.ofInt k.ptr, UInt16.ofInt k.ptr) else (0, 0)

/-- `wk_keyix` of an allocated key. -/
def Key.keyix (k : Key) : UInt16 := (cywKeyAlloc k).1

/-! ## Requests -/

def cywCryptoAlgoOff : UInt32 := 0
def cywCryptoAlgoWep1 : UInt32 := 1
def cywCryptoAlgoTkip : UInt32 := 2
def cywCryptoAlgoWep128 : UInt32 := 3
def cywCryptoAlgoAesCcm : UInt32 := 4
def cywPrimaryKey : UInt32 := (1 : UInt32) <<< 1

def etherBroadcast : Bssid := 0xffffffffffff

/-- `struct cyw_wsec_key`; `data` are its first `len` bytes. -/
structure CywWsecKey where
  index : UInt32
  data : List UInt8
  algo : UInt32
  flags : UInt32
  ivInitialized : UInt32
  rxivHi : UInt32
  rxivLo : UInt16
  ea : Bssid
deriving DecidableEq

/-- Where the firmware keeps the key. -/
def CywWsecKey.addr (w : CywWsecKey) : Bssid × UInt32 := (w.ea, w.index)

/-- The `switch` over the cipher. -/
def cywKeyAlgo (c : Cipher) (keylen : Nat) : Option UInt32 :=
  match c with
  | .aesCcm => some cywCryptoAlgoAesCcm
  | .tkip => some cywCryptoAlgoTkip
  | .wep => some (if keylen = 5 then cywCryptoAlgoWep1 else cywCryptoAlgoWep128)
  | .other _ => none

/-- `key.ea` of `cyw_key_set`; `bss` is the BSSID of `iv_bss`. -/
def cywKeyEa (k : Key) (bss : Option Bssid) : Bssid :=
  if k.group then 0
  else if k.macaddr = etherBroadcast then bss.getD 0
  else k.macaddr

/-- `cyw_key_set(vap, k)` up to its IOVAR: the request, unless the key is refused. -/
def cywKeySet (k : Key) (bss : Option Bssid) : Option CywWsecKey :=
  match k.cipher with
  | none => none
  | some c =>
    if k.key.length > 32 then none
    else
      (cywKeyAlgo c k.key.length).map fun algo =>
        { index := k.keyix.toUInt32
          data := k.key
          algo := algo
          flags := if k.group then cywPrimaryKey else 0
          ivInitialized := if k.group then 1 else 0
          rxivHi := if k.group then (k.keyrsc >>> 16).toUInt32 else 0
          rxivLo := if k.group then (k.keyrsc &&& 0xffff).toUInt16 else 0
          ea := cywKeyEa k bss }

/-- The request of `cyw_key_delete(vap, k)`. -/
def cywKeyDelete (k : Key) : CywWsecKey where
  index := k.keyix.toUInt32
  data := []
  algo := cywCryptoAlgoOff
  flags := cywPrimaryKey
  ivInitialized := 0
  rxivHi := 0
  rxivLo := 0
  ea := 0

theorem cywKeySet_addr {k : Key} {bss : Option Bssid} {w : CywWsecKey} (h : cywKeySet k bss = some w) :
    w.addr = (cywKeyEa k bss, k.keyix.toUInt32) := by
  unfold cywKeySet at h
  split at h
  · cases h
  · split at h
    · cases h
    · obtain ⟨algo, -, rfl⟩ := Option.map_eq_some_iff.1 h
      rfl

theorem cywKeySet_algo {k : Key} {bss : Option Bssid} {w : CywWsecKey} (h : cywKeySet k bss = some w) :
    w.algo ≠ cywCryptoAlgoOff := by
  unfold cywKeySet at h
  split at h
  · cases h
  · next c hc =>
    split at h
    · cases h
    · obtain ⟨algo, ha, rfl⟩ := Option.map_eq_some_iff.1 h
      unfold cywKeyAlgo at ha
      cases c with
      | other n => cases ha
      | wep =>
        cases ha
        dsimp only
        split <;> decide
      | _ =>
        cases ha
        dsimp only
        decide

/-- A deletion addresses what `cyw_key_set` has installed exactly if that was under the address 0: always for a group
key, for a pairwise key never while the peer's address is known. -/
theorem cywKeyDelete_addr_iff {k : Key} {bss : Option Bssid} {w : CywWsecKey} (h : cywKeySet k bss = some w) :
    (cywKeyDelete k).addr = w.addr ↔ cywKeyEa k bss = 0 := by
  rw [cywKeySet_addr h]
  constructor
  · intro ha
    exact (congrArg Prod.fst ha).symm
  · intro he
    rw [he]
    rfl

/-! ## The store -/

/-- The firmware's keys, with whose they are, and what was set last for each key and not deleted since. -/
structure KeyStore where
  store : Bssid × UInt32 → Option (KeyPtr × CywWsecKey)
  live : KeyPtr → Option CywWsecKey

namespace KeyStore

def empty : KeyStore := ⟨fun _ => none, fun _ => none⟩

/-- The firmware's "wsec_key", for a request about key `p`. -/
def wsecKey (s : KeyStore) (p : KeyPtr) (w : CywWsecKey) : KeyStore :=
  { s with store := update s.store w.addr (if w.algo = cywCryptoAlgoOff then none else some (p, w)) }

inductive KeyAct where
  | set (k : Key) (bss : Option Bssid)
  | delete (k : Key)

/-- A call for an allocated key whose IOVAR succeeds. -/
def step (s : KeyStore) : KeyAct → Option KeyStore
  | .set k bss => (cywKeySet k bss).map fun w => { s.wsecKey k.ptr w with live := update s.live k.ptr (some w) }
  | .delete k => some { s.wsecKey k.ptr (cywKeyDelete k) with live := update s.live k.ptr none }

/-- The firmware holds the keys set and not yet deleted, and no others. -/
def Holds (s : KeyStore) : Prop := Agree CywWsecKey.addr s.store s.live

/-- Where the request of a call goes to. -/
def KeyAct.addr : KeyAct → Bssid × UInt32
  | set k bss => (cywKeyEa k bss, k.keyix.toUInt32)
  | delete k => (0, k.keyix.toUInt32)

def KeyAct.ptr : KeyAct → KeyPtr
  | set k _ => k.ptr
  | delete k => k.ptr

/-- The slot a call addresses is free or its key's, and the key is in no other. -/
def SlotOk (s : KeyStore) (a : KeyAct) : Prop := Own CywWsecKey.addr s.store s.live a.ptr a.addr

variable {s s' : KeyStore}

theorem holds_step_iff {a : KeyAct} (h : s.Holds) (hs : s.step a = some s') : s'.Holds ↔ SlotOk s a := by
  cases a with
  | set k bss =>
    obtain ⟨w, hw, rfl⟩ := Option.map_eq_some_iff.1 hs
    have hstore : (s.wsecKey k.ptr w).store = update s.store w.addr ((some w).map (Prod.mk k.ptr)) := by
      unfold wsecKey
      rw [if_neg (cywKeySet_algo hw)]
      rfl
    unfold Holds SlotOk
    rw [hstore, show KeyAct.addr (.set k bss) = w.addr from (cywKeySet_addr hw).symm]
    apply h.update_iff
    intro x hx
    cases hx
    rfl
  | delete k =>
    cases hs
    refine Agree.update_iff (y := none) h nofun

/-- The deletion of an installed key addresses that key's slot exactly if it was installed under the address 0: for a
pairwise key it never does while the peer's address is known. -/
theorem slotOk_delete_iff {k : Key} {bss : Option Bssid} {w : CywWsecKey} (h : s.Holds)
    (hw : cywKeySet k bss = some w) (hl : s.live k.ptr = some w) : SlotOk s (.delete k) ↔ cywKeyEa k bss = 0 := by
  rw [← cywKeyDelete_addr_iff hw]
  constructor
  · intro ho
    exact (ho.entry w hl).symm
  · intro ha
    have hst : s.store (KeyAct.delete k).addr = some (k.ptr, w) := (h _ k.ptr w).2 ⟨hl, ha.symm⟩
    refine ⟨fun j x hj => ?_, fun x hx => ?_⟩
    · cases hst.symm.trans hj
      rfl
    · cases hl.symm.trans hx
      exact ha.symm

/-- **The firmware holds the keys set and not deleted exactly as long as each call addresses its own key's slot.** For
every sequence of successful calls of `cyw_key_set` and `cyw_key_delete`, for any keys allocated: the entries of the
store are those of the keys set and not yet deleted if and only if each call finds the slot it addresses free or its
own key's, and its key in no other slot. -/
theorem key_store_iff (as : List KeyAct) : AllStates step Holds empty as ↔ AllSteps step SlotOk empty as := by
  refine allStates_iff (I := Holds) ?_ (fun s h => h) ?_ (agree_empty _)
  · intro s a s' h hok hs
    exact (holds_step_iff h hs).2 hok
  · intro s a s' h hs h'
    exact (holds_step_iff h hs).1 h'

/-- A group key of index 0 and a pairwise key are installed, and the pairwise key is deleted: the group key is gone, and
the pairwise key is still there. -/
theorem key_delete_other : ∃ t w, run step empty
    [.set ⟨0, true, some .aesCcm, [1], 0, etherBroadcast⟩ none,
      .set ⟨100, false, some .aesCcm, [2], 0, 0x0a0000000001⟩ none,
      .delete ⟨100, false, some .aesCcm, [2], 0, 0x0a0000000001⟩] = some t ∧
      t.live 0 = some w ∧ w.addr = (0, 0) ∧ t.store (0, 0) = none ∧ t.live 100 = none ∧
      (t.store (0x0a0000000001, 0)).map Prod.fst = some 100 ∧ ¬t.Holds := by
  refine ⟨_, _, rfl, rfl, rfl, rfl, rfl, rfl, ?_⟩
  intro h
  cases (h (0, 0) 0 _).2 ⟨rfl, rfl⟩

end KeyStore

end Cyw
