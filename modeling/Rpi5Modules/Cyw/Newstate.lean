import Rpi5Modules.Cyw.Chanspec
import Rpi5Modules.Cyw.Defs
import Rpi5Modules.Lib.Transition

/-!
# State changes of the VAP

net80211 takes the VAP from state to state through `cyw_newstate`, which disassociates on entry to INIT and joins on
entry to AUTH; the firmware reports the outcome of a join by E_LINK and E_SET_SSID, whose handlers ask net80211 for the
next state change.

A step of `cyw_newstate` is what it does up to the next firmware command or lock, with the result of the command it
waits for in the action. Handlers run beside it, one event after the other. What the properties of these functions
speak of and the code does not keep is in the state too: the security values the firmware has accepted, the link it
last reported, and a record of each command, request and `callout_stop`.

- `Vap.next` is `cyw_newstate`, `Vap.finish` its end, `Vap.linkNext` the second half of `cyw_link_event`; `Vap.Next`
  lists what a step of `Vap.next` can do (`Vap.next_cases`);
- the scan it aborts on entry to AUTH is in `Scan`; that its other commands fail is only printed.
-/

namespace Cyw

open Transition

/-- `enum ieee80211_state`. -/
inductive VapState where
  | init
  | scan
  | auth
  | assoc
  | cac
  | run
  | csa
  | sleep
deriving DecidableEq

/-- `nstate == IEEE80211_S_AUTH || nstate == IEEE80211_S_ASSOC`. -/
def VapState.joining (st : VapState) : Bool := st = .auth ∨ st = .assoc

/-! ## Security settings -/

def ieee80211FPrivacy : UInt32 := 0x00000010
def ieee80211FWpa1 : UInt32 := 0x00800000
def ieee80211FWpa2 : UInt32 := 0x01000000

def cywWsecNone : UInt32 := 0x0000
def cywWepEnabled : UInt32 := 0x0001
def cywTkipEnabled : UInt32 := 0x0002
def cywAesEnabled : UInt32 := 0x0004

def cywWpaAuthDisabled : UInt32 := 0x0000
def cywWpaAuthPsk : UInt32 := 0x0004
def cywWpa2AuthPsk : UInt32 := 0x0080

/-- `wsec` and `wpa_auth` of the AUTH case. -/
structure Security where
  wsec : UInt32
  wpaAuth : UInt32
deriving DecidableEq

/-- The settings computed from `iv_flags`. -/
def security (ivFlags : UInt32) : Security :=
  if ivFlags &&& ieee80211FWpa2 ≠ 0 then ⟨cywAesEnabled, cywWpa2AuthPsk⟩
  else if ivFlags &&& ieee80211FWpa1 ≠ 0 then ⟨cywTkipEnabled, cywWpaAuthPsk⟩
  else if ivFlags &&& ieee80211FPrivacy ≠ 0 then ⟨cywWepEnabled, cywWpaAuthDisabled⟩
  else ⟨cywWsecNone, cywWpaAuthDisabled⟩

/-- The values of the `auth`, `wsec` and `wpa_auth` IOVARs the firmware accepted last. -/
structure FwSecurity where
  auth : Option UInt32
  wsec : Option UInt32
  wpaAuth : Option UInt32
deriving DecidableEq

/-- The settings in the firmware are these. -/
def Security.InForce (sec : Security) (fw : FwSecurity) : Prop :=
  fw.auth = some 0 ∧ fw.wsec = some sec.wsec ∧ fw.wpaAuth = some sec.wpaAuth

/-! ## Joins -/

/-- What `cyw_newstate` reads of a node; `chan` is `ni_chan->ic_ieee`. -/
structure Bss where
  bssid : Bssid
  essid : List UInt8
  chan : Option UInt8

/-- The network of an AUTH entry, in its local variables. -/
structure Net extends Bss where
  sec : Security

/-- `struct cyw_assoc_params_le`; the list has `chanspec_num` entries. -/
structure CywAssocParams where
  bssid : Bssid
  chanspecList : List UInt16

/-- `struct cyw_join_scan_params_le`. -/
structure CywJoinScanParams where
  scanType : UInt8
  nprobes : Int32
  activeTime : Int32
  passiveTime : Int32
  homeTime : Int32

/-- `struct cyw_ext_join_params`. -/
structure CywExtJoinParams where
  ssid : List UInt8
  scan : CywJoinScanParams
  assoc : CywAssocParams

/-- `struct cyw_join_params`. -/
structure CywJoinParams where
  ssid : List UInt8
  params : CywAssocParams

/-- A join as a command to the firmware. -/
inductive JoinCmd where
  | join (p : CywExtJoinParams)
  | setSsid (p : CywJoinParams)

namespace Net

/-- `(chan != NULL) ? chan->ic_ieee : 0`. -/
def ieeeChan (n : Net) : Int :=
  match n.chan with
  | some c => c.toNat
  | none => 0

def assocParams (n : Net) (chanspec : UInt16) : CywAssocParams :=
  ⟨n.bssid, if chanspec ≠ 0 then [chanspec] else []⟩

def extJoinParams (n : Net) (chanspec : UInt16) : CywExtJoinParams where
  ssid := n.essid
  scan :=
    if chanspec ≠ 0 then
      { scanType := 0xff, nprobes := 16, activeTime := 320, passiveTime := 400, homeTime := -1 }
    else { scanType := 0xff, nprobes := -1, activeTime := -1, passiveTime := -1, homeTime := -1 }
  assoc := n.assocParams chanspec

def joinParams (n : Net) (chanspec : UInt16) : CywJoinParams := ⟨n.essid, n.assocParams chanspec⟩

end Net

/-! ## State -/

/-- `cyw_newstate`: not called, or at its next test, command or locked section. -/
inductive NewstatePc where
  | idle
  /-- The test of `link_up`, WLC_DISASSOC, and the store behind it. -/
  | initTest
  | disassoc
  | clearLink
  /-- The section that reads `iv_bss`. -/
  | authBss
  /-- The commands of `cyw_set_security`. -/
  | setAuth (n : Net)
  | setWsec (n : Net)
  | setWpaAuth (n : Net)
  | storeBssid (n : Net)
  | join (n : Net)
  | setSsid (n : Net) (chanspec : UInt16)
  /-- The locked section at the end; `bssid` is the one an AUTH entry has read. -/
  | finish (nstate : VapState) (bssid : Option Bssid)

/-- A join issued for a network with these settings. -/
structure JoinRecord where
  cmd : JoinCmd
  sec : Security
  fw : FwSecurity

/-- A WLC_DISASSOC, and the link that was up. -/
structure DisassocRecord where
  val : UInt32
  ea : Bssid
  live : Option Bssid

/-- A `callout_stop(&vap->iv_mgtsend)`: the current BSSID, and the one a join was accepted for. -/
structure StopRecord where
  current : Option Bssid
  accepted : Option Bssid

/-- A call of `ieee80211_new_state`, and what it found. -/
structure RequestRecord where
  nstate : VapState
  ivState : VapState
  needsJoin : Bool

/-- The VAP, what the softc has of its link, the firmware, and what has happened. `live` is the BSSID of the last E_LINK
up that no E_LINK down has ended, `joined` are those of the joins accepted, `accepted` is that of the join accepted in
the present attempt, which a state other than AUTH and ASSOC ends; `needsJoin` is set from an INIT entry to the next
join. -/
structure Vap where
  ivState : VapState
  ivBss : Option Bss
  ivFlags : UInt32
  mgtsend : Bool
  linkUp : Bool
  joinBssid : Bssid
  cache : BssCsCache
  pc : NewstatePc
  /-- The flag of the E_LINK whose handler has set `link_up`. -/
  event : Option Bool
  fw : FwSecurity
  live : Option Bssid
  joined : List Bssid
  accepted : Option Bssid
  needsJoin : Bool
  joins : List JoinRecord
  disassocs : List DisassocRecord
  stops : List StopRecord
  requests : List RequestRecord

namespace Vap

/-- After `cyw_vap_create`. -/
def created (bss : Option Bss) (ivFlags : UInt32) : Vap where
  ivState := .init
  ivBss := bss
  ivFlags := ivFlags
  mgtsend := false
  linkUp := false
  joinBssid := 0
  cache := .zeroed
  pc := .idle
  event := none
  fw := ⟨none, none, none⟩
  live := none
  joined := []
  accepted := none
  needsJoin := false
  joins := []
  disassocs := []
  stops := []
  requests := []

/-! ## `cyw_newstate` -/

/-- `switch (nstate)`. -/
def newstate (s : Vap) (nstate : VapState) : Vap :=
  { s with
    pc :=
      match nstate with
      | .init => .initTest
      | .auth => .authBss
      | _ => .finish nstate none }

/-- A join is on its way. -/
def issue (s : Vap) (n : Net) (cmd : JoinCmd) : Vap :=
  { s with joins := ⟨cmd, n.sec, s.fw⟩ :: s.joins, needsJoin := false }

/-- The end of an AUTH entry whose join the firmware has accepted. -/
def accept (s : Vap) (n : Net) : Vap :=
  { s with joined := n.bssid :: s.joined, accepted := some n.bssid, pc := .finish .auth (some n.bssid) }

/-- The next step of `cyw_newstate`; `err` is what the firmware command returns, where there is one. -/
def next (s : Vap) (err : Errno) : Option Vap :=
  match s.pc with
  | .idle => none
  | .initTest => some { s with pc := if s.linkUp then .disassoc else .finish .init none }
  | .disassoc => some { s with disassocs := ⟨3, s.joinBssid, s.live⟩ :: s.disassocs, pc := .clearLink }
  | .clearLink => some { s with linkUp := false, pc := .finish .init none }
  | .authBss =>
    match s.ivBss with
    | none => some { s with pc := .finish .auth none }
    | some bss =>
      some
        { s with
          accepted := if s.accepted = some bss.bssid then s.accepted else none
          pc := .setAuth { bss with sec := security s.ivFlags } }
  | .setAuth n =>
    some (if err = 0 then { s with fw := { s.fw with auth := some 0 }, pc := .setWsec n }
      else { s with pc := .storeBssid n })
  | .setWsec n =>
    some (if err = 0 then { s with fw := { s.fw with wsec := some n.sec.wsec }, pc := .setWpaAuth n }
      else { s with pc := .storeBssid n })
  | .setWpaAuth n =>
    some (if err = 0 then { s with fw := { s.fw with wpaAuth := some n.sec.wpaAuth }, pc := .storeBssid n }
      else { s with pc := .storeBssid n })
  | .storeBssid n => some { s with joinBssid := n.bssid, pc := .join n }
  | .join n =>
    let chanspec := cywChanspecForJoin s.cache n.bssid n.ieeeChan
    let s := s.issue n (.join (n.extJoinParams chanspec))
    some (if err = 0 then s.accept n else { s with pc := .setSsid n chanspec })
  | .setSsid n chanspec =>
    let s := s.issue n (.setSsid (n.joinParams chanspec))
    some (if err = 0 then s.accept n else { s with pc := .finish .auth (some n.bssid) })
  | .finish _ _ => none

/-- The BSSID an entry is about: the one an AUTH entry has read, else that of `iv_bss`. -/
def current (s : Vap) (nstate : VapState) (bssid : Option Bssid) : Option Bssid :=
  if nstate = .auth then bssid else s.ivBss.map Bss.bssid

/-- The locked section at the end of `cyw_newstate`: net80211's own `cv_newstate`, which sets `iv_state` and re-arms
`iv_mgtsend` if `arms`, and the stop of that callout. -/
def finish (s : Vap) (nstate : VapState) (bssid : Option Bssid) (arms : Bool) : Vap :=
  { s with
    ivState := nstate
    mgtsend := if nstate.joining then false else arms
    stops := if nstate.joining then ⟨s.current nstate bssid, s.accepted⟩ :: s.stops else s.stops
    accepted := if nstate.joining then s.accepted else none
    needsJoin := if nstate = .init then true else s.needsJoin
    pc := .idle }

/-! ## Events -/

def cywEventMsgLink : UInt32 := 0x01
def cywEStatusSuccess : UInt32 := 0

/-- `ieee80211_new_state(vap, nstate, 0)`. -/
def request (s : Vap) (nstate : VapState) : Vap :=
  { s with requests := ⟨nstate, s.ivState, s.needsJoin⟩ :: s.requests }

/-- `(msg->flags & CYW_EVENT_MSG_LINK) != 0`. -/
def linkFlag (flags : UInt32) : Bool := flags &&& cywEventMsgLink ≠ 0

/-- `cyw_link_event` up to its store to `link_up`. -/
def link (s : Vap) (up : Bool) (addr : Bssid) : Vap :=
  { s with linkUp := up, live := if up then some addr else none, event := some up }

/-- The rest of `cyw_link_event`; `vap` says whether there is a VAP. -/
def linkNext (s : Vap) (up vap : Bool) : Vap :=
  let s := { s with event := none }
  if !vap then s
  else if up then s.request .run
  else if s.ivState = .run ∨ s.ivState.joining then s.request .scan
  else s

/-- `cyw_set_ssid_event`. -/
def setSsidEvent (s : Vap) (status : UInt32) (vap : Bool) : Vap :=
  if status = cywEStatusSuccess ∨ !vap then s else if s.ivState.joining then s.request .scan else s

/-! ## What the handlers leave alone -/

/-- A handler only asks for state changes. -/
theorem linkNext_eq (s : Vap) (up vap : Bool) :
    s.linkNext up vap = { s with event := none, requests := (s.linkNext up vap).requests } := by
  unfold linkNext
  dsimp only
  repeat' split
  all_goals rfl

theorem setSsidEvent_eq (s : Vap) (status : UInt32) (vap : Bool) :
    s.setSsidEvent status vap = { s with requests := (s.setSsidEvent status vap).requests } := by
  unfold setSsidEvent
  repeat' split
  all_goals rfl

/-! ## Steps -/

inductive VapAct where
  /-- net80211 takes another node for `iv_bss`, or changes `iv_flags`. -/
  | config (bss : Option Bss) (ivFlags : UInt32)
  /-- A scan result. -/
  | addBss (bssid : Bssid) (chanspec : UInt16)
  | newstate (nstate : VapState)
  | next (err : Errno)
  | finish (arms : Bool)
  | link (flags : UInt32) (addr : Bssid)
  | linkNext (vap : Bool)
  | setSsidEvent (status : UInt32) (vap : Bool)

def step (s : Vap) : VapAct → Option Vap
  | .config bss ivFlags => some { s with ivBss := bss, ivFlags := ivFlags }
  | .addBss bssid chanspec => some { s with cache := cywBssCsCacheAdd s.cache bssid chanspec }
  | .newstate nstate =>
    match s.pc with
    | .idle => some (s.newstate nstate)
    | _ => none
  | .next err => s.next err
  | .finish arms =>
    match s.pc with
    | .finish nstate bssid => some (s.finish nstate bssid arms)
    | _ => none
  | .link flags addr => if s.event = none then some (s.link (linkFlag flags) addr) else none
  | .linkNext vap => s.event.map fun up => s.linkNext up vap
  | .setSsidEvent status vap => if s.event = none then some (s.setSsidEvent status vap) else none

variable {s s' : Vap} {a : VapAct} {err : Errno}

/-- The steps inside `cyw_newstate`, one constructor for each thing the next one can do. -/
inductive Next (s : Vap) (err : Errno) : Vap → Prop where
  | linkUp (hc : s.pc = .initTest) (hl : s.linkUp = true) : Next s err { s with pc := .disassoc }
  | linkDown (hc : s.pc = .initTest) (hl : s.linkUp = false) : Next s err { s with pc := .finish .init none }
  | disassoc (hc : s.pc = .disassoc) :
      Next s err { s with disassocs := ⟨3, s.joinBssid, s.live⟩ :: s.disassocs, pc := .clearLink }
  | clearLink (hc : s.pc = .clearLink) : Next s err { s with linkUp := false, pc := .finish .init none }
  | noBss (hc : s.pc = .authBss) (hb : s.ivBss = none) : Next s err { s with pc := .finish .auth none }
  | bss {bss : Bss} (hc : s.pc = .authBss) (hb : s.ivBss = some bss) :
      Next s err
        { s with
          accepted := if s.accepted = some bss.bssid then s.accepted else none
          pc := .setAuth { bss with sec := security s.ivFlags } }
  | auth {n : Net} (hc : s.pc = .setAuth n) (he : err = 0) :
      Next s err { s with fw := { s.fw with auth := some 0 }, pc := .setWsec n }
  | noAuth {n : Net} (hc : s.pc = .setAuth n) (he : err ≠ 0) : Next s err { s with pc := .storeBssid n }
  | wsec {n : Net} (hc : s.pc = .setWsec n) (he : err = 0) :
      Next s err { s with fw := { s.fw with wsec := some n.sec.wsec }, pc := .setWpaAuth n }
  | noWsec {n : Net} (hc : s.pc = .setWsec n) (he : err ≠ 0) : Next s err { s with pc := .storeBssid n }
  | wpaAuth {n : Net} (hc : s.pc = .setWpaAuth n) (he : err = 0) :
      Next s err { s with fw := { s.fw with wpaAuth := some n.sec.wpaAuth }, pc := .storeBssid n }
  | noWpaAuth {n : Net} (hc : s.pc = .setWpaAuth n) (he : err ≠ 0) : Next s err { s with pc := .storeBssid n }
  | storeBssid {n : Net} (hc : s.pc = .storeBssid n) : Next s err { s with joinBssid := n.bssid, pc := .join n }
  | join {n : Net} (hc : s.pc = .join n) (he : err = 0) :
      Next s err
        ((s.issue n (.join (n.extJoinParams (cywChanspecForJoin s.cache n.bssid n.ieeeChan)))).accept n)
  | noJoin {n : Net} (hc : s.pc = .join n) (he : err ≠ 0) :
      Next s err
        { s.issue n (.join (n.extJoinParams (cywChanspecForJoin s.cache n.bssid n.ieeeChan))) with
          pc := .setSsid n (cywChanspecForJoin s.cache n.bssid n.ieeeChan) }
  | setSsid {n : Net} {chanspec : UInt16} (hc : s.pc = .setSsid n chanspec) (he : err = 0) :
      Next s err ((s.issue n (.setSsid (n.joinParams chanspec))).accept n)
  | noSetSsid {n : Net} {chanspec : UInt16} (hc : s.pc = .setSsid n chanspec) (he : err ≠ 0) :
      Next s err { s.issue n (.setSsid (n.joinParams chanspec)) with pc := .finish .auth (some n.bssid) }

theorem next_cases (hs : s.next err = some s') : Next s err s' := by
  unfold next at hs
  cases hc : s.pc with
  | idle =>
    rw [hc] at hs
    cases hs
  | initTest =>
    rw [hc] at hs
    cases hs
    by_cases hl : s.linkUp = true
    · rw [if_pos hl]
      exact .linkUp hc hl
    · rw [if_neg hl]
      exact .linkDown hc (Bool.eq_false_iff.2 hl)
  | disassoc =>
    rw [hc] at hs
    cases hs
    exact .disassoc hc
  | clearLink =>
    rw [hc] at hs
    cases hs
    exact .clearLink hc
  | authBss =>
    rw [hc] at hs
    dsimp only at hs
    split at hs
    · next hb =>
      cases hs
      exact .noBss hc hb
    · next bss hb =>
      cases hs
      exact .bss hc hb
  | setAuth n =>
    rw [hc] at hs
    cases hs
    split
    · next he => exact .auth hc he
    · next he => exact .noAuth hc he
  | setWsec n =>
    rw [hc] at hs
    cases hs
    split
    · next he => exact .wsec hc he
    · next he => exact .noWsec hc he
  | setWpaAuth n =>
    rw [hc] at hs
    cases hs
    split
    · next he => exact .wpaAuth hc he
    · next he => exact .noWpaAuth hc he
  | storeBssid n =>
    rw [hc] at hs
    cases hs
    exact .storeBssid hc
  | join n =>
    rw [hc] at hs
    cases hs
    split
    · next he => exact .join hc he
    · next he => exact .noJoin hc he
  | setSsid n chanspec =>
    rw [hc] at hs
    cases hs
    split
    · next he => exact .setSsid hc he
    · next he => exact .noSetSsid hc he
  | finish nstate bssid =>
    rw [hc] at hs
    cases hs

/-- What belongs to `cyw_newstate` alone. -/
structure Beside (s s' : Vap) : Prop where
  pc : s'.pc = s.pc
  joinBssid : s'.joinBssid = s.joinBssid
  fw : s'.fw = s.fw
  accepted : s'.accepted = s.accepted
  needsJoin : s'.needsJoin = s.needsJoin
  joins : s'.joins = s.joins
  disassocs : s'.disassocs = s.disassocs
  stops : s'.stops = s.stops

/-- A step is one of `cyw_newstate`, or one beside it. -/
theorem step_cases (hs : s.step a = some s') :
    (∃ nstate, a = .newstate nstate ∧ s.pc = .idle ∧ s' = s.newstate nstate) ∨
      (∃ err, a = .next err ∧ s.next err = some s') ∨
      (∃ arms nstate bssid, a = .finish arms ∧ s.pc = .finish nstate bssid ∧ s' = s.finish nstate bssid arms) ∨
      Beside s s' := by
  cases a with
  | config bss ivFlags =>
    cases hs
    exact .inr (.inr (.inr ⟨rfl, rfl, rfl, rfl, rfl, rfl, rfl, rfl⟩))
  | addBss bssid chanspec =>
    cases hs
    exact .inr (.inr (.inr ⟨rfl, rfl, rfl, rfl, rfl, rfl, rfl, rfl⟩))
  | newstate nstate =>
    simp only [step] at hs
    split at hs
    · next hc =>
      cases hs
      exact .inl ⟨nstate, rfl, hc, rfl⟩
    · cases hs
  | next err => exact .inr (.inl ⟨err, rfl, hs⟩)
  | finish arms =>
    simp only [step] at hs
    split at hs
    · next nstate bssid hc =>
      cases hs
      exact .inr (.inr (.inl ⟨arms, nstate, bssid, rfl, hc, rfl⟩))
    · cases hs
  | link flags addr =>
    simp only [step, Option.ite_none_right_eq_some, Option.some.injEq] at hs
    obtain ⟨-, rfl⟩ := hs
    exact .inr (.inr (.inr ⟨rfl, rfl, rfl, rfl, rfl, rfl, rfl, rfl⟩))
  | linkNext vap =>
    simp only [step, Option.map_eq_some_iff] at hs
    obtain ⟨up, -, rfl⟩ := hs
    rw [linkNext_eq]
    exact .inr (.inr (.inr ⟨rfl, rfl, rfl, rfl, rfl, rfl, rfl, rfl⟩))
  | setSsidEvent status vap =>
    simp only [step, Option.ite_none_right_eq_some, Option.some.injEq] at hs
    obtain ⟨-, rfl⟩ := hs
    rw [setSsidEvent_eq]
    exact .inr (.inr (.inr ⟨rfl, rfl, rfl, rfl, rfl, rfl, rfl, rfl⟩))

end Vap

end Cyw
