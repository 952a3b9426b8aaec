import EspCsi.EspNow.Exchange

/-!
# Who hears the next control frame

When every responder whose reply has not been accepted yet is addressed by the control traffic. Only
a responder that hears a control frame ever replies, so one that is not addressed stays unknown.
-/

namespace EspCsi.EspNow.Exchange

open Wire Transition

/-! ## What a step can do -/

theorem macs_update (s : Exchange) (mac : Mac) {f : Responder → Responder}
    (hf : ∀ r, (f r).mac = r.mac) : (s.update mac f).macs = s.macs := by
  unfold macs update
  rw [List.map_map]
  apply List.map_congr_left
  intro r _
  change (if r.mac = mac then f r else r).mac = r.mac
  split_ifs
  · exact hf r
  · rfl

theorem measure_eq (board : Csi.Board) (s : Exchange) (f : AirFrame) (info : Csi.WifiCsiInfo)
    (head : List UInt8) (now : UInt64) :
    ∃ node measured, s.measure board f info head now =
      { s with initiator := { s.initiator with node }, measured } := by
  unfold measure
  split_ifs
  · exact ⟨s.initiator.node, s.measured, rfl⟩
  · exact ⟨_, _, rfl⟩

section

variable {board : Csi.Board} {s s' : Exchange} {e : Event}

theorem Outcome.macs (h : Outcome board s e s') :
    s'.macs = s.macs ∨
      ∃ mac, mac ∉ s.macs ∧ mac ≠ BROADCAST_ADDRESS ∧ s'.macs = s.macs ++ [mac] ∧
        s'.initiator = s.initiator := by
  cases h with
  | @powerOn mac _ _ _ _ hunicast hfresh =>
    exact .inr ⟨mac, hfresh, hunicast, by simp [Exchange.macs, Responder.start], rfl⟩
  | skip | receivePass | send | sent | toInitiator | lose => exact .inl rfl
  | toResponder k mac => exact .inl (s.macs_update mac fun _ => rfl)
  | ingest mac registers => exact .inl (s.macs_update mac fun r => r.ingestNext_mac registers)
  | reply mac => exact .inl (s.macs_update mac fun r => r.reply_mac)
  | @measure f k info head now =>
    obtain ⟨node, measured, heq⟩ := measure_eq board s f info head now
    exact .inl (by rw [heq]; rfl)

theorem Outcome.downlink (h : Outcome board s e s') :
    s'.initiator.downlink = s.initiator.downlink ∨
      s'.initiator.downlink = s.initiator.receivePass.downlink := by
  cases h with
  | receivePass => exact .inr rfl
  | skip | powerOn | send | toInitiator | toResponder | lose | ingest | reply => exact .inl rfl
  | sent ok => cases ok <;> exact .inl rfl
  | @measure f k info head now =>
    obtain ⟨node, measured, heq⟩ := measure_eq board s f info head now
    exact .inl (by rw [heq])

theorem Outcome.air (h : Outcome board s e s') {f : AirFrame} (hf : f ∈ s'.air) :
    f ∈ s.air ∨ f.src = s.initiatorMac ∨ f.src ∈ s.macs := by
  cases h with
  | skip | powerOn | receivePass | sent | toInitiator | toResponder | ingest => exact .inl hf
  | send =>
    rcases List.mem_append.mp hf with hf | hf
    · exact .inl hf
    · rw [List.mem_singleton.mp hf]
      exact .inr (.inl rfl)
  | lose => exact .inl (List.mem_of_mem_eraseIdx hf)
  | reply mac =>
    rcases List.mem_append.mp hf with hf | hf
    · exact .inl hf
    · obtain ⟨r, hr, hreply⟩ := List.mem_filterMap.mp hf
      obtain ⟨out, -, rfl⟩ := Option.map_eq_some_iff.mp hreply
      exact .inr (.inr (List.mem_map_of_mem (List.mem_of_mem_filter hr)))
  | @measure f' k info head now =>
    obtain ⟨node, measured, heq⟩ := measure_eq board s f' info head now
    exact .inl (by rwa [heq] at hf)

theorem Outcome.pool (h : Outcome board s e s') {r : PoolFrame}
    (hr : r ∈ s'.initiator.pool.queue) :
    r ∈ s.initiator.pool.queue ∨ ∃ f ∈ s.air, f.src ≠ s.initiatorMac ∧ r.srcAddress = f.src := by
  cases h with
  | skip | powerOn | send | toResponder | lose | ingest | reply => exact .inl hr
  | receivePass => exact .inl (Pool.mem_drain_queue hr)
  | sent ok => cases ok <;> exact .inl hr
  | @toInitiator f k hf hother =>
    rcases Pool.mem_rcvCb hr with hold | rfl
    · exact .inl hold
    · exact .inr ⟨f, hf, hother, rfl⟩
  | @measure f k info head now =>
    obtain ⟨node, measured, heq⟩ := measure_eq board s f info head now
    exact .inl (by rwa [heq] at hr)

theorem Outcome.fixed (h : Outcome board s e s') :
    s'.initiatorMac = s.initiatorMac ∧ s'.initiator.peerMac = s.initiator.peerMac := by
  cases h with
  | skip | powerOn | receivePass | send | toInitiator | toResponder | lose | ingest | reply =>
    exact ⟨rfl, rfl⟩
  | sent ok => cases ok <;> exact ⟨rfl, rfl⟩
  | @measure f k info head now =>
    obtain ⟨node, measured, heq⟩ := measure_eq board s f info head now
    rw [heq]
    exact ⟨rfl, rfl⟩

end

/-! ## The invariant -/

/-- Replies on their way, and those accepted, are from responders powered on. -/
structure Sound (s : Exchange) : Prop where
  nodup : s.macs.Nodup
  individual : BROADCAST_ADDRESS ∉ s.macs
  air : ∀ f ∈ s.air, f.src = s.initiatorMac ∨ f.src ∈ s.macs
  pool : ∀ r ∈ s.initiator.pool.queue, r.srcAddress ∈ s.macs
  auto : s.initiator.peerMac = none
  tracks : s.initiator.downlink.Tracks
  accepted : ∀ mac ∈ s.initiator.downlink.accepted, mac ∈ s.macs

theorem sound_start (mac : Mac) (node : Csi.Node) (cfg : Csi.Node.RunConfig) :
    (start mac node cfg).Sound where
  nodup := .nil
  individual := List.not_mem_nil
  air := fun _ hf => absurd hf List.not_mem_nil
  pool := fun _ hr => absurd hr List.not_mem_nil
  auto := rfl
  tracks := Downlink.tracks_start
  accepted := fun _ hm => absurd hm List.not_mem_nil

theorem Sound.receivePass_accepted {s : Exchange} (h : s.Sound) {mac : Mac}
    (hmac : mac ∈ s.initiator.receivePass.downlink.accepted) : mac ∈ s.macs := by
  simp only [Initiator.receivePass, Downlink.receivePass] at hmac
  rcases List.mem_append.mp hmac with hmac | hmac
  · exact h.accepted mac hmac
  · obtain ⟨r, hr, rfl⟩ := List.mem_map.mp hmac
    exact h.pool r (Pool.mem_drain (List.mem_of_mem_filter hr))

theorem Sound.step {s : Exchange} (h : s.Sound) (board : Csi.Board) (e : Event) :
    (s.step board e).Sound := by
  obtain ⟨hself, hpeer⟩ := (step_outcome board s e).fixed
  have hgrow : s.macs ⊆ (s.step board e).macs := by
    rcases (step_outcome board s e).macs with hsame | ⟨mac, -, -, hnew, -⟩
    · rw [hsame]
      exact List.Subset.refl _
    · rw [hnew]
      exact List.subset_append_left _ _
  constructor
  · rcases (step_outcome board s e).macs with hsame | ⟨mac, hfresh, -, hnew, -⟩
    · rw [hsame]
      exact h.nodup
    · rw [hnew]
      exact h.nodup.append (List.nodup_singleton mac) (by simpa using hfresh)
  · rcases (step_outcome board s e).macs with hsame | ⟨mac, -, hunicast, hnew, -⟩
    · rw [hsame]
      exact h.individual
    · rw [hnew, List.mem_append, List.mem_singleton]
      exact not_or.mpr ⟨h.individual, fun heq => hunicast heq.symm⟩
  · intro f hf
    rw [hself]
    -- a new frame is the initiator's, or a responder's that is powered on
    rcases (step_outcome board s e).air hf with hold | hsrc | hsrc
    · exact (h.air f hold).imp_right fun hmem => hgrow hmem
    · exact .inl hsrc
    · exact .inr (hgrow hsrc)
  · intro r hr
    rcases (step_outcome board s e).pool hr with hold | ⟨f, hf, hother, hsrc⟩
    · exact hgrow (h.pool r hold)
    · rw [hsrc]
      exact hgrow ((h.air f hf).resolve_left hother)
  · rw [hpeer]
    exact h.auto
  · rcases (step_outcome board s e).downlink with hsame | hpass
    · rw [hsame]
      exact h.tracks
    · rw [hpass, Initiator.receivePass, h.auto]
      exact h.tracks.receivePass _
  · intro mac hmac
    apply hgrow
    rcases (step_outcome board s e).downlink with hsame | hpass
    · exact h.accepted mac (hsame ▸ hmac)
    · exact h.receivePass_accepted (hpass ▸ hmac)

theorem sound_run (board : Csi.Board) (mac : Mac) (node : Csi.Node) (cfg : Csi.Node.RunConfig)
    (evs : List Event) : (run (step board) (start mac node cfg) evs).Sound :=
  (always_of_step (Q := Sound) (sound_start mac node cfg) fun _ e h => h.step board e).last

/-! ## Reaching the unaccepted -/

/-- Every responder whose reply the initiator has not accepted yet is a receiver of the control
traffic: it goes to everyone, or to that responder. -/
def Reaches (s : Exchange) : Prop :=
  ∀ mac ∈ s.macs, mac ∉ s.initiator.downlink.accepted →
    s.initiator.downlink.txTarget = BROADCAST_ADDRESS ∨ s.initiator.downlink.txTarget = mac

instance (s : Exchange) : Decidable s.Reaches := inferInstanceAs (Decidable (∀ _ ∈ _, _))

/-- No reply has been accepted, or at most one responder powered on. -/
def PairOnly (s : Exchange) : Prop :=
  s.initiator.downlink.accepted = [] ∨ s.macs.length ≤ 1

instance (s : Exchange) : Decidable s.PairOnly := inferInstanceAs (Decidable (_ ∨ _))

theorem Sound.txTarget_of_none {s : Exchange} (h : s.Sound)
    (hnone : s.initiator.downlink.accepted = []) :
    s.initiator.downlink.txTarget = BROADCAST_ADDRESS := by
  rw [h.tracks.txTarget_eq, hnone]
  rfl

theorem Sound.txTarget_of_sole {s : Exchange} (h : s.Sound) {mac : Mac}
    (hsome : s.initiator.downlink.accepted ≠ [])
    (hall : ∀ mac' ∈ s.initiator.downlink.accepted, mac' = mac) :
    s.initiator.downlink.txTarget = mac := by
  have hdedup : s.initiator.downlink.accepted.dedup = [mac] := by
    rw [List.eq_replicate_of_mem hall, List.replicate_dedup]
    exact fun hlen => hsome (List.length_eq_zero_iff.mp hlen)
  have hfew : s.initiator.downlink.accepted.dedup.length ≤ RX_TRACKED_PEERS_CAPACITY := by
    rw [hdedup]
    exact Nat.le_add_left 1 15
  rw [h.tracks.txTarget_eq, recent_eq_self hfew, soleOrBroadcast, hdedup]

theorem eq_of_mem_of_length_le_one {l : List Mac} (h : l.length ≤ 1) {a b : Mac} (ha : a ∈ l)
    (hb : b ∈ l) : a = b := by
  obtain ⟨only, rfl⟩ : ∃ only, l = [only] := by
    apply List.length_eq_one_iff.mp
    have hpos := List.length_pos_of_mem ha
    omega
  exact (List.mem_singleton.mp ha).trans (List.mem_singleton.mp hb).symm

theorem Sound.reaches {s : Exchange} (h : s.Sound) (hpair : s.PairOnly) : s.Reaches := by
  intro mac hmac hpending
  left
  apply h.txTarget_of_none
  rcases hpair with hnone | hone
  · exact hnone
  · -- whoever has been accepted is this responder
    rw [List.eq_nil_iff_forall_not_mem]
    intro mac' hmem
    have hsame := eq_of_mem_of_length_le_one hone (h.accepted mac' hmem) hmac
    exact hpending (hsame ▸ hmem)

theorem Sound.step_accepted {s : Exchange} (h : s.Sound) (board : Csi.Board) (e : Event) :
    (s.step board e).initiator.downlink.accepted = s.initiator.downlink.accepted ∨
      ∃ mac, (s.step board e).initiator.downlink.accepted =
        s.initiator.downlink.accepted ++ [mac] := by
  rcases (step_outcome board s e).downlink with hsame | hpass
  · exact .inl (by rw [hsame])
  · rw [hpass, Initiator.receivePass, h.auto]
    rcases s.initiator.downlink.accepted_of_burst (List.length_take_le _ _) with hkeep | ⟨r, -, hnew⟩
    · exact .inl hkeep
    · exact .inr ⟨r.srcAddress, hnew⟩

theorem Sound.pairOnly_of_step {s : Exchange} (h : s.Sound) (board : Csi.Board) (e : Event)
    (hpair : (s.step board e).PairOnly) : s.PairOnly := by
  rcases hpair with hnone | hone
  · left
    rcases h.step_accepted board e with hsame | ⟨mac, hnew⟩
    · rwa [← hsame]
    · rw [hnew] at hnone
      exact absurd hnone (by simp)
  · right
    rcases (step_outcome board s e).macs with hsame | ⟨mac, -, -, hnew, -⟩
    · rwa [← hsame]
    · rw [hnew, List.length_append] at hone
      omega

/-- The first reply of one of two responders, or a second responder after it, leaves one of them
unaddressed. -/
theorem Sound.pairOnly_step {s : Exchange} (h : s.Sound) (hpair : s.PairOnly) (board : Csi.Board)
    (e : Event) (hreach : (s.step board e).Reaches) : (s.step board e).PairOnly := by
  by_contra hmany
  obtain ⟨hsome, htwo⟩ := not_or.mp hmany
  have hnext := h.step board e
  have hsole : ∃ mac, ∀ mac' ∈ (s.step board e).initiator.downlink.accepted, mac' = mac := by
    rcases hpair with hnone | hone
    · rcases h.step_accepted board e with hsame | ⟨mac, hnew⟩
      · exact absurd (hsame.trans hnone) hsome
      · exact ⟨mac, by simp [hnew, hnone]⟩
    · rcases (step_outcome board s e).macs with hsame | ⟨mac, -, -, -, hinit⟩
      · exact absurd (hsame ▸ hone) htwo
      · rw [hinit] at hsome ⊢
        obtain ⟨first, hfirst⟩ := List.exists_mem_of_ne_nil _ hsome
        exact ⟨first, fun mac' hmem =>
          eq_of_mem_of_length_le_one hone (h.accepted mac' hmem) (h.accepted first hfirst)⟩
  obtain ⟨mac, hall⟩ := hsole
  have htarget := hnext.txTarget_of_sole hsome hall
  obtain ⟨first, hfirst⟩ := List.exists_mem_of_ne_nil _ hsome
  have hknown : mac ∈ (s.step board e).macs := hall first hfirst ▸ hnext.accepted first hfirst
  -- another responder is on, and it is not the one addressed
  obtain ⟨other, hother, hne⟩ : ∃ other ∈ (s.step board e).macs, other ≠ mac := by
    by_contra hnone
    push Not at hnone
    apply htwo
    rw [← List.nodup_replicate (a := mac), ← List.eq_replicate_of_mem hnone]
    exact hnext.nodup
  rcases hreach other hother fun hmem => hne (hall other hmem) with hall' | hsame
  · exact hnext.individual (hall' ▸ htarget ▸ hknown)
  · exact hne (hsame.symm.trans htarget)

/-- Over any run of the exchange, every unaccepted responder is a receiver of the control traffic in
every state exactly when no reply is accepted in the run, or at most one responder powers on. -/
theorem reaches_iff_pairOnly (board : Csi.Board) (mac : Mac) (node : Csi.Node)
    (cfg : Csi.Node.RunConfig) (evs : List Event) :
    Always (step board) Reaches (start mac node cfg) evs ↔
      (run (step board) (start mac node cfg) evs).PairOnly := by
  induction evs using List.reverseRecOn with
  | nil =>
    rw [always_nil]
    exact iff_of_true (fun _ hmem => absurd hmem List.not_mem_nil) (.inl rfl)
  | append_singleton evs e ih =>
    have hsound := sound_run board mac node cfg evs
    rw [always_concat, ih, run_concat]
    constructor
    · rintro ⟨hpair, hreach⟩
      exact hsound.pairOnly_step hpair board e hreach
    · intro hpair
      exact ⟨hsound.pairOnly_of_step board e hpair, (hsound.step board e).reaches hpair⟩

def mac (i : UInt8) : Mac := ⟨2, 0, 0, 0, 0, i⟩

/-- The first responder pairs, and then a second one powers on. -/
def lateJoiner : List Event :=
  [.powerOn (mac 1) .esp32 .default false .boot, .receivePass, .send, .sent true,
    .arrive 0 (mac 1), .ingest (mac 1) true, .reply (mac 1), .arrive 1 (mac 0), .receivePass,
    .powerOn (mac 2) .esp32 .default false .boot, .receivePass, .send]

/-- The late joiner is on, its reply was never accepted, and the next control frame is for the other
responder alone. -/
theorem lateJoiner_lockedOut :
    let s := run (step .esp32) (start (mac 0) .boot .monitor) lateJoiner
    mac 2 ∈ s.macs ∧ mac 2 ∉ s.initiator.downlink.accepted ∧
      s.air.getLast?.map AirFrame.dst = some (mac 1) ∧ ¬ s.Reaches := by
  decide +kernel

end EspCsi.EspNow.Exchange
