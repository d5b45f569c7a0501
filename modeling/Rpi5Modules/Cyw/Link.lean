import Rpi5Modules.Cyw.Newstate

/-!
# Link events

The firmware finishes a join on its own and reports it by E_LINK, which may arrive when net80211 has long given up the
join, or has begun another one.

- RUN is requested only from an association exactly as long as each E_LINK up is handled in AUTH, ASSOC or RUN, with a
  join issued since the VAP was last in INIT (`run_requests_iff`): `cyw_link_event` tests `iv_state` only for a link
  that goes down;
- WLC_DISASSOC names the live link exactly as long as each E_LINK up is for the BSSID in `join_bssid`, or about to be
  stored there, no AUTH entry for another BSSID meets a link that is up, and no E_LINK down meets a WLC_DISASSOC on its
  way (`disassoc_decides`).
-/

namespace Cyw

open Transition

/-- INIT has sent WLC_DISASSOC and has yet to clear `link_up`. -/
def NewstatePc.clearing : NewstatePc → Bool
  | clearLink => true
  | _ => false

/-- WLC_DISASSOC is on its way. -/
def NewstatePc.disassociating : NewstatePc → Bool
  | disassoc => true
  | _ => false

namespace Vap

variable {s s' : Vap} {err : Errno}

/-! ## Requests -/

/-- The VAP is associating or associated, by a join issued since it was last in INIT. -/
def Associating (ivState : VapState) (needsJoin : Bool) : Prop :=
  (ivState = .run ∨ ivState.joining) ∧ needsJoin = false

/-- RUN was only requested from an association. -/
def RunRequested (s : Vap) : Prop := ∀ r ∈ s.requests, r.nstate = .run → Associating r.ivState r.needsJoin

/-- E_LINK up is handled in an association. -/
def LinkUpOk (s : Vap) : VapAct → Prop
  | .linkNext vap => s.event = some true → vap = true → Associating s.ivState s.needsJoin
  | _ => True

theorem RunRequested.request {nstate : VapState} (h : s.RunRequested)
    (hr : nstate = .run → Associating s.ivState s.needsJoin) : (s.request nstate).RunRequested := by
  intro r hm
  rcases List.mem_cons.1 hm with rfl | hm
  · exact hr
  · exact h r hm

theorem next_requests (hs : s.next err = some s') : s'.requests = s.requests := by
  cases next_cases hs <;> rfl

theorem runRequested_step {a : VapAct} (h : s.RunRequested) (hok : LinkUpOk s a) (hs : s.step a = some s') :
    s'.RunRequested := by
  cases a with
  | next err =>
    unfold RunRequested
    rw [next_requests hs]
    exact h
  | newstate nstate =>
    simp only [step] at hs
    split at hs <;> cases hs
    exact h
  | finish arms =>
    simp only [step] at hs
    split at hs <;> cases hs
    exact h
  | link flags addr =>
    simp only [step, Option.ite_none_right_eq_some, Option.some.injEq] at hs
    obtain ⟨-, rfl⟩ := hs
    exact h
  | linkNext vap =>
    simp only [step, Option.map_eq_some_iff] at hs
    obtain ⟨up, hup, rfl⟩ := hs
    unfold linkNext
    have h' : RunRequested { s with event := none } := h
    cases vap with
    | false => exact h'
    | true =>
      cases up with
      | true => exact h'.request fun _ => hok hup rfl
      | false =>
        dsimp only
        split
        · next hn => cases hn
        · split
          · next hn => cases hn
          · split
            · apply h'.request
              intro hn
              cases hn
            · exact h'
  | setSsidEvent status vap =>
    simp only [step, Option.ite_none_right_eq_some, Option.some.injEq] at hs
    obtain ⟨-, rfl⟩ := hs
    unfold setSsidEvent
    split
    · exact h
    · split
      · apply h.request
        intro hn
        cases hn
      · exact h
  | _ =>
    cases hs
    exact h

/-- A request made out of turn stays on record. -/
theorem linkUpOk_of_runRequested {a : VapAct} (h : s'.RunRequested) (hs : s.step a = some s') : LinkUpOk s a := by
  cases a with
  | linkNext vap =>
    intro hup hv
    subst hv
    simp only [step, hup, Option.map_some, Option.some.injEq] at hs
    subst hs
    exact h ⟨.run, s.ivState, s.needsJoin⟩ List.mem_cons_self rfl
  | _ => trivial

/-- **RUN is requested only from an association exactly as long as no E_LINK up comes outside one.** For every
interleaving of state changes, with any results of the commands, and events: `cyw_link_event` has asked for RUN only in
AUTH, ASSOC or RUN, and after INIT not before the next join, if and only if each E_LINK up has been handled there. -/
theorem run_requests_iff (bss : Option Bss) (ivFlags : UInt32) (as : List VapAct) :
    AllStates step RunRequested (created bss ivFlags) as ↔ AllSteps step LinkUpOk (created bss ivFlags) as := by
  refine allStates_iff (I := RunRequested) ?_ (fun s h => h) ?_ ?_
  · intro s a s' h hok hs
    exact runRequested_step h hok hs
  · intro s a s' _ hs h
    exact linkUpOk_of_runRequested h hs
  · intro r hr
    cases hr

/-- The join of an AUTH entry is accepted, the VAP goes to INIT, and then the link comes up. -/
theorem run_requested_init : ∃ t, run step (created (some ⟨0x0a0000000001, [0x61], some 1⟩) ieee80211FWpa2)
    [.newstate .auth, .next 0, .next 0, .next 0, .next 0, .next 0, .next 0, .finish true, .newstate .init, .next 0,
      .finish false, .link cywEventMsgLink 0x0a0000000001, .linkNext true] = some t ∧
      t.requests = [⟨.run, .init, true⟩] ∧ ¬t.RunRequested := by
  refine ⟨_, rfl, rfl, ?_⟩
  intro h
  have hr : Associating .init true := h _ List.mem_cons_self rfl
  cases hr.2

/-! ## Disassociation -/

/-- Every WLC_DISASSOC named the link that was up. -/
def DisassocLive (s : Vap) : Prop := ∀ r ∈ s.disassocs, r.live = some r.ea

/-- The BSSID that `join_bssid` holds, or is about to hold: an AUTH entry stores it only behind `cyw_set_security`. -/
def target (s : Vap) : Bssid :=
  match s.pc with
  | .setAuth n => n.bssid
  | .setWsec n => n.bssid
  | .setWpaAuth n => n.bssid
  | .storeBssid n => n.bssid
  | _ => s.joinBssid

/-- An up event is one of a join that was accepted. -/
def UpOfJoined (s : Vap) : VapAct → Prop
  | .link flags addr => linkFlag flags = true → addr ∈ s.joined
  | _ => True

/-- An up event is for the BSSID in `join_bssid` or about to be stored there, unless `link_up` is about to be cleared;
a down event does not meet a WLC_DISASSOC. -/
def LinkEventOk (s : Vap) : Bool → Bssid → Prop
  | true, addr => s.pc.clearing = false → addr = s.target
  | false, _ => s.pc.disassociating = false

/-- The link events are such, and an AUTH entry for another BSSID than that in `join_bssid` does not meet a link that is
up. -/
def LinkOk (s : Vap) : VapAct → Prop
  | .link flags addr => s.LinkEventOk (linkFlag flags) addr
  | .next _ =>
    match s.pc with
    | .authBss => ∀ bss, s.ivBss = some bss → s.linkUp = true → bss.bssid = s.joinBssid
    | _ => True
  | _ => True

/-- **The invariant**: a link that is up is the one in `join_bssid`, or about to be stored there. -/
structure LinkInv (s : Vap) : Prop where
  disassocs : s.DisassocLive
  up : s.linkUp = true → s.pc.clearing = false → s.live = some s.target
  sending : s.pc.disassociating = true → s.live = some s.joinBssid

theorem linkInv_created (bss : Option Bss) (ivFlags : UInt32) : LinkInv (created bss ivFlags) := by
  refine ⟨?_, nofun, nofun⟩
  intro r hr
  cases hr

theorem linkInv_next (h : LinkInv s) (hok : LinkOk s (.next err)) (hs : s.next err = some s') : LinkInv s' := by
  obtain ⟨hd, hup, hsend⟩ := h
  unfold LinkOk at hok
  unfold target at hup
  cases next_cases hs with
  | linkUp hc hl =>
    rw [hc] at hup
    exact ⟨hd, fun _ _ => hup hl rfl, fun _ => hup hl rfl⟩
  | linkDown hc hl => exact ⟨hd, fun hl' => absurd (hl.symm.trans hl') Bool.false_ne_true, nofun⟩
  | disassoc hc =>
    rw [hc] at hsend
    refine ⟨?_, nofun, nofun⟩
    intro r hr
    rcases List.mem_cons.1 hr with rfl | hr
    · exact hsend rfl
    · exact hd r hr
  | clearLink hc => exact ⟨hd, nofun, nofun⟩
  | bss hc hb =>
    rw [hc] at hok hup
    refine ⟨hd, ?_, nofun⟩
    intro hl _
    rw [hup hl rfl]
    exact congrArg some (hok _ hb hl).symm
  | _ hc =>
    rw [hc] at hup
    exact ⟨hd, hup, nofun⟩

theorem linkInv_link {up : Bool} {addr : Bssid} (h : LinkInv s) (hok : s.LinkEventOk up addr) :
    LinkInv (s.link up addr) := by
  cases up with
  | true =>
    refine ⟨h.disassocs, fun _ hc => congrArg some (hok hc), ?_⟩
    intro hd
    cases hc : s.pc with
    | disassoc =>
      have ht := hok (by rw [hc]; rfl)
      unfold target at ht
      rw [hc] at ht
      exact congrArg some ht
    | _ =>
      have hd' : s.pc.disassociating = true := hd
      rw [hc] at hd'
      cases hd'
  | false =>
    refine ⟨h.disassocs, nofun, ?_⟩
    intro hd
    cases hok.symm.trans hd

theorem linkInv_step {a : VapAct} (h : LinkInv s) (hok : LinkOk s a) (hs : s.step a = some s') : LinkInv s' := by
  have hup := h.up
  unfold target at hup
  cases a with
  | config bss ivFlags =>
    cases hs
    exact ⟨h.disassocs, h.up, h.sending⟩
  | addBss bssid chanspec =>
    cases hs
    exact ⟨h.disassocs, h.up, h.sending⟩
  | newstate nstate =>
    simp only [step] at hs
    split at hs
    · next hc =>
      cases hs
      rw [hc] at hup
      cases nstate <;> exact ⟨h.disassocs, fun hl _ => hup hl rfl, fun hd => absurd hd Bool.false_ne_true⟩
    · cases hs
  | next err => exact linkInv_next h hok hs
  | finish arms =>
    simp only [step] at hs
    split at hs
    · next nstate bssid hc =>
      cases hs
      rw [hc] at hup
      exact ⟨h.disassocs, fun hl _ => hup hl rfl, fun hd => absurd hd Bool.false_ne_true⟩
    · cases hs
  | link flags addr =>
    simp only [step, Option.ite_none_right_eq_some, Option.some.injEq] at hs
    obtain ⟨-, rfl⟩ := hs
    exact linkInv_link h hok
  | linkNext vap =>
    simp only [step, Option.map_eq_some_iff] at hs
    obtain ⟨up, -, rfl⟩ := hs
    rw [linkNext_eq]
    exact ⟨h.disassocs, h.up, h.sending⟩
  | setSsidEvent status vap =>
    simp only [step, Option.ite_none_right_eq_some, Option.some.injEq] at hs
    obtain ⟨-, rfl⟩ := hs
    rw [setSsidEvent_eq]
    exact ⟨h.disassocs, h.up, h.sending⟩

/-! ### The way to a wrong WLC_DISASSOC -/

/-- Without further events, a WLC_DISASSOC can come to name another BSSID. -/
def WrongLater (s : Vap) : Prop :=
  ∃ bs t, (∀ a ∈ bs, ∀ s, UpOfJoined s a) ∧ run step s bs = some t ∧ ¬t.DisassocLive

theorem WrongLater.of_step {a : VapAct} (hs : s.step a = some s') (ha : ∀ s, UpOfJoined s a) (h : WrongLater s') :
    WrongLater s := by
  obtain ⟨bs, t, hbs, hr, ht⟩ := h
  refine ⟨a :: bs, t, ?_, run_cons_some.2 ⟨s', hs, hr⟩, ht⟩
  intro b hb
  rcases List.mem_cons.1 hb with rfl | hb
  · exact ha
  · exact hbs b hb

theorem wrong_of_disassoc (hc : s.pc = .disassoc) (hn : s.live ≠ some s.joinBssid) : WrongLater s := by
  refine ⟨[.next 0], { s with disassocs := ⟨3, s.joinBssid, s.live⟩ :: s.disassocs, pc := .clearLink }, ?_, ?_, ?_⟩
  · intro a ha
    cases List.mem_singleton.1 ha
    exact fun _ => trivial
  · simp [step, next, hc]
  · intro h
    exact hn (h _ List.mem_cons_self)

section

variable (hu : s.linkUp = true)

include hu

theorem wrong_of_initTest (hc : s.pc = .initTest) (hn : s.live ≠ some s.joinBssid) : WrongLater s := by
  have hs : s.step (.next 0) = some { s with pc := .disassoc } := by simp [step, next, hc, hu]
  exact .of_step hs (fun _ => trivial) (wrong_of_disassoc rfl hn)

theorem wrong_of_idle (hc : s.pc = .idle) (hn : s.live ≠ some s.joinBssid) : WrongLater s := by
  have hs : s.step (.newstate .init) = some (s.newstate .init) := by simp [step, hc]
  exact .of_step hs (fun _ => trivial) (wrong_of_initTest hu rfl hn)

theorem wrong_of_finish {nstate : VapState} {bssid : Option Bssid} (hc : s.pc = .finish nstate bssid)
    (hn : s.live ≠ some s.joinBssid) : WrongLater s := by
  have hs : s.step (.finish false) = some (s.finish nstate bssid false) := by simp [step, hc]
  exact .of_step hs (fun _ => trivial) (wrong_of_idle hu rfl hn)

theorem wrong_of_join {n : Net} (hc : s.pc = .join n) (hn : s.live ≠ some s.joinBssid) : WrongLater s := by
  let cmd : JoinCmd := .join (n.extJoinParams (cywChanspecForJoin s.cache n.bssid n.ieeeChan))
  have hs : s.step (.next 0) = some ((s.issue n cmd).accept n) := by simp [step, next, hc, cmd]
  exact .of_step hs (fun _ => trivial) (wrong_of_finish hu rfl hn)

theorem wrong_of_storeBssid {n : Net} (hc : s.pc = .storeBssid n) (hn : s.live ≠ some n.bssid) : WrongLater s := by
  have hs : s.step (.next 0) = some { s with joinBssid := n.bssid, pc := .join n } := by simp [step, next, hc]
  exact .of_step hs (fun _ => trivial) (wrong_of_join hu rfl hn)

/-- A link that is up, other than the one in `join_bssid` or about to be stored there. -/
theorem wrong_of_astray (hcl : s.pc.clearing = false) (hn : s.live ≠ some s.target) : WrongLater s := by
  have hskip : ∀ n, s.step (.next eio) = some { s with pc := .storeBssid n } → s.live ≠ some n.bssid →
      WrongLater s := by
    intro n hs hn
    exact .of_step hs (fun _ => trivial) (wrong_of_storeBssid hu rfl hn)
  unfold target at hn
  cases hc : s.pc with
  | idle =>
    rw [hc] at hn
    exact wrong_of_idle hu hc hn
  | initTest =>
    rw [hc] at hn
    exact wrong_of_initTest hu hc hn
  | disassoc =>
    rw [hc] at hn
    exact wrong_of_disassoc hc hn
  | clearLink =>
    rw [hc] at hcl
    cases hcl
  | authBss =>
    rw [hc] at hn
    have hs : s.step (.config none 0) = some { s with ivBss := none, ivFlags := 0 } := rfl
    have hs' : step { s with ivBss := none, ivFlags := 0 } (.next 0) =
        some { s with ivBss := none, ivFlags := 0, pc := .finish .auth none } := by simp [step, next, hc]
    exact .of_step hs (fun _ => trivial) (.of_step hs' (fun _ => trivial) (wrong_of_finish hu rfl hn))
  | setAuth n =>
    rw [hc] at hn
    exact hskip n (by simp [step, next, hc, eio]) hn
  | setWsec n =>
    rw [hc] at hn
    exact hskip n (by simp [step, next, hc, eio]) hn
  | setWpaAuth n =>
    rw [hc] at hn
    exact hskip n (by simp [step, next, hc, eio]) hn
  | storeBssid n =>
    rw [hc] at hn
    exact wrong_of_storeBssid hu hc hn
  | join n =>
    rw [hc] at hn
    exact wrong_of_join hu hc hn
  | setSsid n chanspec =>
    rw [hc] at hn
    have hs : s.step (.next 0) = some ((s.issue n (.setSsid (n.joinParams chanspec))).accept n) := by
      simp [step, next, hc]
    exact .of_step hs (fun _ => trivial) (wrong_of_finish hu rfl hn)
  | finish nstate bssid =>
    rw [hc] at hn
    exact wrong_of_finish hu hc hn

end

theorem wrong_of_break {a : VapAct} (h : LinkInv s) (hok : ¬LinkOk s a) (hs : s.step a = some s') :
    WrongLater s' := by
  cases a with
  | link flags addr =>
    simp only [step, Option.ite_none_right_eq_some, Option.some.injEq] at hs
    obtain ⟨-, rfl⟩ := hs
    unfold LinkOk at hok
    dsimp only at hok
    cases hf : linkFlag flags with
    | true =>
      rw [hf] at hok
      obtain ⟨hc, ha⟩ := Classical.not_imp.1 hok
      refine wrong_of_astray rfl hc ?_
      intro hl
      exact ha (Option.some.inj hl)
    | false =>
      rw [hf] at hok
      cases hc : s.pc with
      | disassoc =>
        refine wrong_of_disassoc hc ?_
        intro hl
        cases hl
      | _ =>
        unfold LinkEventOk at hok
        rw [hc] at hok
        exact (hok rfl).elim
  | next err =>
    unfold LinkOk at hok
    have hup := h.up
    unfold target at hup
    cases hc : s.pc with
    | authBss =>
      rw [hc] at hok hup
      obtain ⟨bss, hok⟩ := Classical.not_forall.1 hok
      obtain ⟨hb, hok⟩ := Classical.not_imp.1 hok
      obtain ⟨hl, hne⟩ := Classical.not_imp.1 hok
      simp only [step, next, hc, hb, Option.some.injEq] at hs
      subst hs
      refine wrong_of_astray hl rfl ?_
      rw [show s.live = some s.joinBssid from hup hl rfl]
      intro hj
      exact hne (Option.some.inj hj).symm
    | _ =>
      rw [hc] at hok
      exact (hok trivial).elim
  | _ => exact (hok trivial).elim

/-- **WLC_DISASSOC names the live link exactly as long as links and joins do not overtake each other.** For every
sequence of state changes and link events, each up event for a join that was accepted: if up events are for the BSSID
in `join_bssid` or about to be stored there, AUTH entries for another BSSID do not meet a link that is up, and down
events do not meet a WLC_DISASSOC on its way, each WLC_DISASSOC names the BSSID of the link that is up; a step of
another kind can be followed by one that does not. -/
theorem disassoc_decides (bss : Option Bss) (ivFlags : UInt32) (as : List VapAct)
    (hE : AllSteps step UpOfJoined (created bss ivFlags) as) :
    Decides step UpOfJoined LinkOk DisassocLive (created bss ivFlags) as := by
  refine decides_of (I := LinkInv) ?_ (fun s h => h.disassocs) ?_ (linkInv_created bss ivFlags) hE
  · intro s a s' h _ hok hs
    exact linkInv_step h hok hs
  · intro s a s' h _ hok hs
    obtain ⟨bs, t, hbs, hr, ht⟩ := wrong_of_break h hok hs
    exact ⟨bs, t, .of_mem hbs, hr, ht⟩

/-- A run in which the VAP joins one BSS, whose link comes up, and then another one that rejects both joins, and goes to
INIT. -/
def roam : List VapAct :=
  [.newstate .auth, .next 0, .next 0, .next 0, .next 0, .next 0, .next 0, .finish true] ++
    .link cywEventMsgLink 0x0a0000000001 ::
      [.linkNext true, .config (some ⟨0x0a0000000002, [0x61], some 1⟩) ieee80211FWpa2, .newstate .auth, .next 0,
        .next 0, .next 0, .next 0, .next 0, .next eio, .next eio, .finish true, .newstate .init, .next 0, .next 0]

theorem roam_upOfJoined :
    AllSteps step UpOfJoined (created (some ⟨0x0a0000000001, [0x61], some 1⟩) ieee80211FWpa2) roam := by
  refine AllSteps.append (AllSteps.of_mem ?_) rfl ((allSteps_cons rfl).2 ⟨?_, AllSteps.of_mem ?_⟩)
  · simp [UpOfJoined]
  · exact fun _ => List.mem_singleton_self _
  · simp [UpOfJoined]

theorem disassoc_decides_roam : Decides step UpOfJoined LinkOk DisassocLive
    (created (some ⟨0x0a0000000001, [0x61], some 1⟩) ieee80211FWpa2) roam :=
  disassoc_decides _ _ _ roam_upOfJoined

/-- It sends WLC_DISASSOC for the other BSS, which the VAP never associated with. -/
theorem disassoc_other : ∃ t,
    AllSteps step UpOfJoined (created (some ⟨0x0a0000000001, [0x61], some 1⟩) ieee80211FWpa2) roam ∧
      run step (created (some ⟨0x0a0000000001, [0x61], some 1⟩) ieee80211FWpa2) roam = some t ∧
        t.disassocs = [⟨3, 0x0a0000000002, some 0x0a0000000001⟩] ∧ ¬t.DisassocLive := by
  refine ⟨_, roam_upOfJoined, rfl, rfl, ?_⟩
  intro h
  have hr : some (0x0a0000000001 : Bssid) = some 0x0a0000000002 := h _ List.mem_cons_self
  exact absurd hr (by decide)

end Vap

end Cyw
