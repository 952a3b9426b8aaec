import EspCsi.EspNow.Network

/-!
# Simplex pairing

Whom sources and peers pair with on a channel they share with symmetric nodes. Every frame in a pool
was sent by a node whose role allows it; what a source or a peer makes of the next frame is up to
its bytes alone, and those do not tell a peer's beacon from an initiator's control frame, nor a
source's hello from a responder's reply.
-/

namespace EspCsi.EspNow.Network

open Wire Transition

/-! ## Where frames come from -/

def Received (s : Network) (mac : Mac) (r : PoolFrame) : Prop :=
  ∃ role dst, s.role r.srcAddress = some role ∧ role.MaySend dst r.data ∧
    (dst = BROADCAST_ADDRESS ∨ dst = mac)

def IsPeer (s : Network) (mac : Mac) : Prop :=
  ∃ detectedSrc beacons, s.role mac = some (.peer detectedSrc beacons)

/-- Every frame has a sender, and only peers are marked. -/
structure Traced (s : Network) : Prop where
  unicast : ∀ mac, s.role mac ≠ none → mac ≠ BROADCAST_ADDRESS
  auto : ∀ mac n, s.nodes mac = some n → n.Auto
  air : ∀ f ∈ s.air, ∃ role, s.role f.src = some role ∧ role.MaySend f.dst f.data
  pool : ∀ mac n, s.nodes mac = some n → ∀ r ∈ n.pool.queue, s.Received mac r
  heard : ∀ mac, s.heard mac = true → s.IsPeer mac

theorem traced_start : start.Traced where
  unicast := fun _ h => absurd rfl h
  auto := fun _ _ hn => nomatch (show none = some _ from hn)
  air := fun _ hf => absurd hf List.not_mem_nil
  pool := fun _ _ hn => nomatch (show none = some _ from hn)
  heard := fun _ h => absurd h Bool.false_ne_true

def LockedOnto (s : Network) (mac : Mac) : Prop :=
  ∃ src, s.role src = some (.source (some mac))

def Extends (s s' : Network) : Prop :=
  ∀ mac role, s.role mac = some role → ∃ r, s'.role mac = some (role.take r)

theorem take_none (role : Role) : role.take none = role := by
  cases role with
  | source peerAddr => cases peerAddr <;> rfl
  | peer detectedSrc beacons => cases detectedSrc <;> rfl
  | initiator => rfl
  | responder => rfl

namespace Extends

variable {s s' : Network}

theorem of_role_eq (h : s'.role = s.role) : s.Extends s' := by
  intro mac role hrole
  exact ⟨none, by rw [h, hrole, take_none]⟩

theorem received (h : s.Extends s') {mac : Mac} {r : PoolFrame} (hr : s.Received mac r) :
    s'.Received mac r := by
  obtain ⟨role, dst, hrole, hsend, hdst⟩ := hr
  obtain ⟨taken, hrole'⟩ := h _ _ hrole
  exact ⟨role.take taken, dst, hrole', hsend.take taken, hdst⟩

theorem isPeer (h : s.Extends s') {mac : Mac} (hpeer : s.IsPeer mac) : s'.IsPeer mac := by
  obtain ⟨detectedSrc, beacons, hrole⟩ := hpeer
  obtain ⟨taken, hrole'⟩ := h _ _ hrole
  rw [IsPeer, hrole']
  cases detectedSrc with
  | some src => exact ⟨_, _, rfl⟩
  | none =>
    cases taken with
    | none => exact ⟨_, _, rfl⟩
    | some r =>
      cases hreply : isReply r with
      | true => exact ⟨some r.srcAddress, false, by simp [Role.take, hreply]⟩
      | false => exact ⟨none, beacons, by simp [Role.take, hreply]⟩

theorem lockedOnto (h : s.Extends s') {mac : Mac} (hlocked : s.LockedOnto mac) :
    s'.LockedOnto mac := by
  obtain ⟨src, hrole⟩ := hlocked
  obtain ⟨taken, hrole'⟩ := h _ _ hrole
  exact ⟨src, hrole'⟩

end Extends

section

variable {s s' : Network} {e : Event} {mac : Mac} {n : Node} {r : PoolFrame}

theorem update_role_self (hn : s.nodes mac = some n) :
    Function.update s.role mac (some n.role) = s.role :=
  Function.update_eq_self_iff.mpr (role_of_node hn).symm

theorem Traced.role_receive (h : s.Traced) (hn : s.nodes mac = some n) (registers : Bool) :
    (s.set mac (n.receive registers)).role =
      Function.update s.role mac (some (n.role.take n.pool.queue.head?)) := by
  rw [role_set, Node.role_receive (h.auto mac n hn)]

theorem Outcome.extends (hs : s.Traced) (h : Outcome s e s') : s.Extends s' := by
  cases h with
  | skip _ => exact .of_role_eq rfl
  | powerOn config hunicast hfresh =>
    intro mac role hrole
    refine ⟨none, ?_⟩
    rw [role_set, Function.update_of_ne, hrole, take_none]
    rintro rfl
    rw [Network.role, hfresh] at hrole
    cases hrole
  | arrive k hn hf hreceived =>
    apply Extends.of_role_eq
    rw [role_set, Node.role_rcvCb, update_role_self hn]
  | @receive mac n registers hn =>
    intro mac' role hrole
    show ∃ r, (s.set mac (n.receive registers)).role mac' = _
    rw [hs.role_receive hn]
    by_cases hmac : mac' = mac
    · subst hmac
      obtain rfl : n.role = role := Option.some_inj.mp ((role_of_node hn).symm.trans hrole)
      exact ⟨_, Function.update_self ..⟩
    · exact ⟨none, by rw [Function.update_of_ne hmac, hrole, take_none]⟩
  | send ok hn hframe =>
    apply Extends.of_role_eq
    show (s.set _ _).role = _
    rw [role_set, Node.role_sent, update_role_self hn]

theorem Outcome.node (h : Outcome s e s') {n' : Node} (hn' : s'.nodes mac = some n') :
    s.nodes mac = some n' ∨
      (mac ≠ BROADCAST_ADDRESS ∧ ∃ config, e = .powerOn mac config ∧ n' = .start mac config) ∨
      ∃ n, s.nodes mac = some n ∧
        ((∃ f ∈ s.air, f.receivedBy mac = true ∧ n' = n.rcvCb f.received) ∨
          (∃ registers, n' = n.receive registers) ∨ ∃ ok, n' = n.sent ok) := by
  have hset : ∀ {mac' : Mac} {n : Node}, (s.set mac' n).nodes mac = some n' →
      s.nodes mac = some n' ∨ mac = mac' ∧ n' = n := by
    intro mac' n hnode
    by_cases hmac : mac = mac'
    · subst hmac
      exact .inr ⟨rfl, by simpa [set] using hnode.symm⟩
    · exact .inl (by simpa [set, hmac] using hnode)
  cases h with
  | skip _ => exact .inl hn'
  | powerOn config hunicast hfresh =>
    rcases hset hn' with hold | ⟨rfl, rfl⟩
    · exact .inl hold
    · exact .inr (.inl ⟨hunicast, config, rfl, rfl⟩)
  | @arrive _ n f k hn hf hreceived =>
    rcases hset hn' with hold | ⟨rfl, rfl⟩
    · exact .inl hold
    · exact .inr (.inr ⟨n, hn, .inl ⟨f, hf, hreceived, rfl⟩⟩)
  | @receive _ n registers hn =>
    rcases hset hn' with hold | ⟨rfl, rfl⟩
    · exact .inl hold
    · exact .inr (.inr ⟨n, hn, .inr (.inl ⟨registers, rfl⟩)⟩)
  | @send _ n out ok hn hframe =>
    rcases hset hn' with hold | ⟨rfl, rfl⟩
    · exact .inl hold
    · exact .inr (.inr ⟨n, hn, .inr (.inr ⟨ok, rfl⟩)⟩)

theorem Outcome.air (h : Outcome s e s') {f : Transmission} (hf : f ∈ s'.air) :
    f ∈ s.air ∨ ∃ n, s.nodes f.src = some n ∧ n.frame = some (f.dst, f.data) := by
  cases h with
  | skip _ => exact .inl hf
  | powerOn config hunicast hfresh => exact .inl hf
  | arrive k hn hf' hreceived => exact .inl hf
  | receive registers hn => exact .inl hf
  | @send mac n out ok hn hframe =>
    rcases List.mem_append.mp hf with hold | hnew
    · exact .inl hold
    · rw [List.mem_singleton.mp hnew]
      exact .inr ⟨n, hn, hframe⟩

theorem Outcome.heard (h : Outcome s e s') (hheard : s'.heard mac = true) :
    s.heard mac = true ∨ ∃ n, s.nodes mac = some n ∧ ∃ r, r ∈ n.taken := by
  cases h with
  | skip _ => exact .inl hheard
  | powerOn config hunicast hfresh => exact .inl hheard
  | arrive k hn hf hreceived => exact .inl hheard
  | @receive mac' n registers hn =>
    change Function.update s.heard mac' (s.heard mac' || s.hears mac' n) mac = true at hheard
    by_cases hmac : mac = mac'
    · subst hmac
      rw [Function.update_self, Bool.or_eq_true] at hheard
      rcases hheard with hold | hnew
      · exact .inl hold
      · obtain ⟨r, hr, -⟩ := List.any_eq_true.mp hnew
        exact .inr ⟨n, hn, r, hr⟩
    · rw [Function.update_of_ne hmac] at hheard
      exact .inl hheard
  | send ok hn hframe => exact .inl hheard

theorem Node.pool_start (mac : Mac) (config : NodeConfig) :
    (Node.start mac config).pool.queue = [] := by
  cases config <;> rfl

theorem Node.isPeer_of_taken (h : r ∈ n.taken) :
    ∃ detectedSrc beacons, n.role = .peer detectedSrc beacons := by
  cases n with
  | peer s => exact ⟨_, _, rfl⟩
  | initiator s io => cases h
  | responder s io => cases h
  | source s => cases h

theorem Traced.received_of_arrival (h : s.Traced) {f : Transmission} (hf : f ∈ s.air)
    (hreceived : f.receivedBy mac = true) :
    s.Received mac
      { f.received with data := f.received.data.take ESP_NOW_MAX_DATA_LEN } := by
  obtain ⟨role, hrole, hsend⟩ := h.air f hf
  have hdst : f.dst = BROADCAST_ADDRESS ∨ f.dst = mac := by
    unfold Transmission.receivedBy at hreceived
    simpa using (Bool.and_eq_true_iff.mp hreceived).2
  have hshort : f.data.take ESP_NOW_MAX_DATA_LEN = f.data :=
    List.take_of_length_le hsend.length_le
  refine ⟨role, f.dst, hrole, ?_, hdst⟩
  show role.MaySend f.dst (f.data.take ESP_NOW_MAX_DATA_LEN)
  rw [hshort]
  exact hsend

theorem Traced.step (h : s.Traced) (e : Event) : (s.step e).Traced := by
  have houtcome := s.step_outcome e
  have hextends := houtcome.extends h
  refine ⟨?_, ?_, ?_, ?_, ?_⟩
  · intro mac hon
    obtain ⟨role, hrole⟩ := Option.ne_none_iff_exists'.mp hon
    obtain ⟨n', hn', -⟩ := Option.map_eq_some_iff.mp hrole
    rcases houtcome.node hn' with hold | ⟨hunicast, -⟩ | ⟨n, hn, -⟩
    · exact h.unicast mac (by rw [role_of_node hold]; nofun)
    · exact hunicast
    · exact h.unicast mac (by rw [role_of_node hn]; nofun)
  · intro mac n' hn'
    rcases houtcome.node hn' with hold | ⟨-, config, -, rfl⟩ | ⟨n, hn, hcall⟩
    · exact h.auto mac n' hold
    · exact Node.auto_start mac config
    · rcases hcall with ⟨f, -, -, rfl⟩ | ⟨registers, rfl⟩ | ⟨ok, rfl⟩
      · exact (h.auto mac n hn).rcvCb f.received
      · exact (h.auto mac n hn).receive registers
      · exact (h.auto mac n hn).sent ok
  · intro f hf
    -- roles only move on as frames are taken, and what was sent then may be sent now
    rcases houtcome.air hf with hold | ⟨n, hn, hframe⟩
    · obtain ⟨role, hrole, hsend⟩ := h.air f hold
      obtain ⟨taken, hrole'⟩ := hextends _ _ hrole
      exact ⟨_, hrole', hsend.take taken⟩
    · obtain ⟨taken, hrole'⟩ := hextends _ _ (role_of_node hn)
      exact ⟨_, hrole', (Node.maySend_of_frame (h.auto _ n hn) hframe).take taken⟩
  · intro mac n' hn' r hr
    have hold : ∀ {n : Node}, s.nodes mac = some n → r ∈ n.pool.queue →
        (s.step e).Received mac r :=
      fun hn hmem => hextends.received (h.pool mac _ hn r hmem)
    rcases houtcome.node hn' with hsame | ⟨-, config, -, rfl⟩ | ⟨n, hn, hcall⟩
    · exact hold hsame hr
    · rw [Node.pool_start] at hr
      cases hr
    · rcases hcall with ⟨f, hf, hreceived, rfl⟩ | ⟨registers, rfl⟩ | ⟨ok, rfl⟩
      · rw [Node.pool_rcvCb] at hr
        rcases Pool.mem_rcvCb hr with hmem | rfl
        · exact hold hn hmem
        · -- new in the pool: it comes from the air
          exact hextends.received (h.received_of_arrival hf hreceived)
      · exact hold hn (Node.mem_pool_receive hr)
      · rw [Node.pool_sent] at hr
        exact hold hn hr
  · intro mac hheard
    apply hextends.isPeer
    rcases houtcome.heard hheard with hold | ⟨n, hn, r, hr⟩
    · exact h.heard mac hold
    · obtain ⟨detectedSrc, beacons, hpeer⟩ := Node.isPeer_of_taken hr
      exact ⟨detectedSrc, beacons, hpeer ▸ role_of_node hn⟩

/-! ## Sound pairing -/

/-- Sources are locked onto peers. -/
def LockPeers (s : Network) : Prop :=
  ∀ mac peer, s.role mac = some (.source (some peer)) → s.IsPeer peer

/-- A peer that has left its beacon phase has a source locked onto it. -/
def LeaveWhenLocked (s : Network) : Prop :=
  ∀ mac src beacons, s.role mac = some (.peer (some src) beacons) → s.LockedOnto mac

/-- A peer that has taken a frame of a source locked onto it has no beacon left to send. -/
def SilentOnceHeard (s : Network) : Prop :=
  ∀ mac detectedSrc, s.heard mac = true → s.role mac ≠ some (.peer detectedSrc true)

structure SoundlyPaired (s : Network) : Prop where
  source : s.LockPeers
  peer : s.LeaveWhenLocked
  silent : s.SilentOnceHeard

/-- A node in this role at `mac` may take `r`: no symmetric initiator's frame while it looks for its
peer; and while it beacons, no symmetric responder's before a source has locked onto it, and none
of a flood. -/
def Harmless (s : Network) (mac : Mac) (r : PoolFrame) : Role → Prop
  | .source none => s.role r.srcAddress ≠ some .initiator
  | .peer none beacons =>
    (s.role r.srcAddress = some .responder → s.LockedOnto mac) ∧
      (beacons = true → (∃ peerAddr, s.role r.srcAddress = some (.source peerAddr)) →
        isControl r = false)
  | _ => True

/-- The frame that a look into a pool takes is harmless. -/
def Undisturbed (s : Network) : Event → Prop
  | .receive mac _ => ∀ n r, s.nodes mac = some n → n.pool.queue.head? = some r →
    s.Harmless mac r n.role
  | _ => True

theorem soundlyPaired_start : start.SoundlyPaired where
  source := fun _ _ h => nomatch (show none = some _ from h)
  peer := fun _ _ _ h => nomatch (show none = some _ from h)
  silent := fun _ _ h => absurd h Bool.false_ne_true

theorem SoundlyPaired.of_role_eq (h : s.SoundlyPaired) (hrole : s'.role = s.role)
    (hheard : s'.heard = s.heard) : s'.SoundlyPaired := by
  refine ⟨?_, ?_, ?_⟩
  · simp only [LockPeers, IsPeer, hrole]
    exact h.source
  · simp only [LeaveWhenLocked, LockedOnto, hrole]
    exact h.peer
  · simp only [SilentOnceHeard, hrole, hheard]
    exact h.silent

theorem SoundlyPaired.update (h : s.SoundlyPaired) (hextends : s.Extends s') {role : Role}
    (hrole : s'.role = Function.update s.role mac (some role))
    (hheard : ∀ mac', mac' ≠ mac → s'.heard mac' = s.heard mac')
    (hsource : ∀ peer, role = .source (some peer) → s'.IsPeer peer)
    (hpeer : ∀ src beacons, role = .peer (some src) beacons → s'.LockedOnto mac)
    (hsilent : ∀ detectedSrc, s'.heard mac = true → role ≠ .peer detectedSrc true) :
    s'.SoundlyPaired := by
  have hnew : s'.role mac = some role := by rw [hrole, Function.update_self]
  have hold : ∀ mac', mac' ≠ mac → s'.role mac' = s.role mac' := by
    intro mac' hmac
    rw [hrole, Function.update_of_ne hmac]
  refine ⟨?_, ?_, ?_⟩
  · intro mac' peer hrole'
    by_cases hmac : mac' = mac
    · subst hmac
      exact hsource peer (Option.some_inj.mp (hnew.symm.trans hrole'))
    · exact hextends.isPeer (h.source mac' peer (hold mac' hmac ▸ hrole'))
  · intro mac' src beacons hrole'
    by_cases hmac : mac' = mac
    · subst hmac
      exact hpeer src beacons (Option.some_inj.mp (hnew.symm.trans hrole'))
    · exact hextends.lockedOnto (h.peer mac' src beacons (hold mac' hmac ▸ hrole'))
  · intro mac' detectedSrc hheard'
    by_cases hmac : mac' = mac
    · subst hmac
      rw [hnew]
      exact fun hrole' => hsilent detectedSrc hheard' (Option.some_inj.mp hrole')
    · rw [hold mac' hmac]
      exact h.silent mac' detectedSrc (hheard mac' hmac ▸ hheard')

theorem SoundlyPaired.powerOn (h : s.SoundlyPaired) (hs : s.Traced) (config : NodeConfig)
    (hunicast : mac ≠ BROADCAST_ADDRESS) (hfresh : s.nodes mac = none) :
    (s.set mac (.start mac config)).SoundlyPaired := by
  apply h.update ((Outcome.powerOn config hunicast hfresh).extends hs) (role_set _ _ _)
    fun _ _ => rfl
  · cases config <;> nofun
  · cases config <;> nofun
  · intro detectedSrc hheard
    obtain ⟨_, _, hrole⟩ := hs.heard mac hheard
    rw [role, hfresh] at hrole
    cases hrole

/-! ## Looking into the pool -/

/-- Who may have sent a frame that is in the pool of `mac`. -/
inductive Sender (s : Network) (mac : Mac) (r : PoolFrame) : Prop
  | initiator (hrole : s.role r.srcAddress = some .initiator) (hdata : ControlData r.data)
  | responder (hrole : s.role r.srcAddress = some .responder) (hdata : ReplyData r.data)
  | source (hrole : s.role r.srcAddress = some (.source (some mac)))
      (hdata : ControlData r.data ∨ ReplyData r.data)
  | peer (hrole : s.IsPeer r.srcAddress) (hdata : ControlData r.data)

theorem Received.maySend (h : s.Received mac r) {role : Role}
    (hrole : s.role r.srcAddress = some role) :
    ∃ dst, role.MaySend dst r.data ∧ (dst = BROADCAST_ADDRESS ∨ dst = mac) := by
  obtain ⟨role', dst, hrole', hsend, hdst⟩ := h
  obtain rfl : role' = role := Option.some_inj.mp (hrole'.symm.trans hrole)
  exact ⟨dst, hsend, hdst⟩

theorem SoundlyPaired.addressee (h : s.SoundlyPaired) (hs : s.Traced) (hr : s.Received mac r)
    {peerAddr : Option Mac} (hrole : s.role r.srcAddress = some (.source peerAddr)) :
    peerAddr = some mac ∧ (ControlData r.data ∨ ReplyData r.data) := by
  obtain ⟨dst, ⟨rfl, hdata⟩, hdst⟩ := hr.maySend hrole
  rcases hdst with rfl | rfl
  · obtain ⟨_, _, hpeer⟩ := h.source _ _ hrole
    exact absurd rfl (hs.unicast BROADCAST_ADDRESS (by rw [hpeer]; nofun))
  · exact ⟨rfl, hdata⟩

theorem SoundlyPaired.sender (h : s.SoundlyPaired) (hs : s.Traced) (hr : s.Received mac r) :
    s.Sender mac r := by
  obtain ⟨role, dst, hrole, hsend, -⟩ := id hr
  cases role with
  | initiator => exact .initiator hrole hsend
  | responder => exact .responder hrole hsend
  | peer detectedSrc beacons => exact .peer ⟨_, _, hrole⟩ hsend
  | source peerAddr =>
    obtain ⟨rfl, hdata⟩ := h.addressee hs hr hrole
    exact .source hrole hdata

theorem received_head (hs : s.Traced) (hn : s.nodes mac = some n)
    (hhead : n.pool.queue.head? = some r) : s.Received mac r :=
  hs.pool mac n hn r (List.mem_of_head? hhead)

theorem step_receive (hn : s.nodes mac = some n) (registers : Bool) :
    s.step (.receive mac registers) =
      { s.set mac (n.receive registers) with
        heard := Function.update s.heard mac (s.heard mac || s.hears mac n) } := by
  simp only [step, hn]

theorem SoundlyPaired.receive (h : s.SoundlyPaired) (hs : s.Traced) (hn : s.nodes mac = some n)
    (registers : Bool) {role : Role} (htake : n.role.take n.pool.queue.head? = role)
    (hsource : ∀ peer, role = .source (some peer) → s.IsPeer peer)
    (hpeer : ∀ src beacons, role = .peer (some src) beacons → s.LockedOnto mac)
    (hsilent : s.heard mac = true ∨ s.hears mac n = true →
      ∀ detectedSrc, role ≠ .peer detectedSrc true) :
    (s.step (.receive mac registers)).SoundlyPaired := by
  have hextends := (s.step_outcome (.receive mac registers)).extends hs
  have hrole : (s.step (.receive mac registers)).role = Function.update s.role mac (some role) := by
    rw [step_receive hn, ← htake]
    exact hs.role_receive hn registers
  have hheard : (s.step (.receive mac registers)).heard =
      Function.update s.heard mac (s.heard mac || s.hears mac n) := by
    rw [step_receive hn]
  apply h.update hextends hrole
  · intro mac' hmac
    rw [hheard, Function.update_of_ne hmac]
  · exact fun peer hlocks => hextends.isPeer (hsource peer hlocks)
  · exact fun src beacons hdetects => hextends.lockedOnto (hpeer src beacons hdetects)
  · intro detectedSrc hmarked
    rw [hheard, Function.update_self, Bool.or_eq_true] at hmarked
    exact hsilent hmarked detectedSrc

theorem role_step_receive (hs : s.Traced) (hn : s.nodes mac = some n) (registers : Bool) :
    (s.step (.receive mac registers)).role mac =
      some (n.role.take n.pool.queue.head?) := by
  rw [step_receive hn]
  show (s.set mac (n.receive registers)).role mac = _
  rw [hs.role_receive hn, Function.update_self]

theorem role_step_other (hs : s.Traced) {mac mac' : Mac} (hn : s.nodes mac = some n)
    (registers : Bool) (hmac : mac' ≠ mac) :
    (s.step (.receive mac registers)).role mac' = s.role mac' := by
  rw [step_receive hn]
  show (s.set mac (n.receive registers)).role mac' = _
  rw [hs.role_receive hn, Function.update_of_ne hmac]

theorem hears_beaconing (s : Network) (mac : Mac) {beacons : Bool}
    (hlistens : n.role = .peer none beacons) :
    s.hears mac n = n.pool.queue.head?.any fun r =>
      s.role r.srcAddress == some (.source (some mac)) := by
  cases n with
  | initiator x io => cases hlistens
  | responder x io => cases hlistens
  | source x => cases hlistens
  | peer x =>
    have hdetected : x.detectedSrc = none := (Role.peer.inj hlistens).1
    simp only [hears, Node.taken, hdetected, if_true, Pool.drain, Node.pool]
    cases x.pool.queue with
    | nil => rfl
    | cons r rest => simp

/-- A source that takes a frame locks onto a peer, or not at all, unless the frame is a symmetric
initiator's. -/
theorem SoundlyPaired.source_iff (h : s.SoundlyPaired) (hs : s.Traced) (hn : s.nodes mac = some n)
    (hlooks : n.role = .source none) (hhead : n.pool.queue.head? = some r) (registers : Bool) :
    (s.step (.receive mac registers)).SoundlyPaired ↔ s.role r.srcAddress ≠ some .initiator := by
  have hr := received_head hs hn hhead
  have htake : n.role.take n.pool.queue.head? =
      .source (if isControl r then some r.srcAddress else none) := by
    rw [hlooks, hhead]
    rfl
  constructor
  · intro hsound hinitiator
    -- its control frame parses like a beacon, and the source locks onto it
    obtain ⟨_, hdata, -⟩ := hr.maySend hinitiator
    have hlocks := role_step_receive hs hn registers
    rw [htake, if_pos (ControlData.isControl hdata)] at hlocks
    obtain ⟨_, _, hpeer⟩ := hsound.source _ _ hlocks
    obtain ⟨taken, hstays⟩ := (s.step_outcome (.receive mac registers)).extends hs _ _ hinitiator
    exact absurd (hpeer.symm.trans hstays) (by nofun)
  · intro hother
    apply h.receive hs hn registers htake
    · intro peer hlocks
      have hcontrol : isControl r = true := by
        by_contra hdata
        rw [if_neg hdata] at hlocks
        cases hlocks
      rw [if_pos hcontrol] at hlocks
      obtain rfl : r.srcAddress = peer := by simpa using hlocks
      cases h.sender hs hr with
      | initiator hrole hdata => exact absurd hrole hother
      | responder hrole hdata => exact absurd hcontrol (by simp [hdata.not_isControl])
      | source hrole hdata =>
        -- a source locked onto `mac` would have locked onto a source
        obtain ⟨_, _, hpeer⟩ := h.source _ _ hrole
        rw [role_of_node hn, hlooks] at hpeer
        cases hpeer
      | peer hrole hdata => exact hrole
    · nofun
    · nofun

/-- What a beaconing peer makes of a frame is sound, unless it is a symmetric responder's and no
source is locked onto the peer, or one of a flood. -/
theorem SoundlyPaired.peer_iff (h : s.SoundlyPaired) (hs : s.Traced) (hn : s.nodes mac = some n)
    {beacons : Bool} (hlistens : n.role = .peer none beacons)
    (hhead : n.pool.queue.head? = some r) (registers : Bool) :
    (s.step (.receive mac registers)).SoundlyPaired ↔
      (s.role r.srcAddress = some .responder → s.LockedOnto mac) ∧
        (beacons = true → (∃ peerAddr, s.role r.srcAddress = some (.source peerAddr)) →
          isControl r = false) := by
  have hr := received_head hs hn hhead
  have hhears : s.hears mac n = (s.role r.srcAddress == some (.source (some mac))) := by
    rw [s.hears_beaconing mac hlistens, hhead, Option.any_some]
  have htake : n.role.take n.pool.queue.head? =
      if isReply r then .peer (some r.srcAddress) false else .peer none beacons := by
    rw [hlistens, hhead]
    rfl
  constructor
  · intro hsound
    have hrole' := role_step_receive hs hn registers
    rw [htake] at hrole'
    constructor
    · intro hresponder
      obtain ⟨_, hdata, -⟩ := hr.maySend hresponder
      rw [if_pos (ReplyData.isReply hdata)] at hrole'
      obtain ⟨src, hlocked⟩ := hsound.peer _ _ _ hrole'
      -- nobody else's role has changed, so the source was locked on before
      have hne : src ≠ mac := by
        rintro rfl
        exact absurd (hlocked.symm.trans hrole') (by nofun)
      exact ⟨src, (role_step_other hs hn registers hne).symm.trans hlocked⟩
    · rintro rfl ⟨peerAddr, hsource⟩
      by_contra hcontrol
      rw [Bool.not_eq_false] at hcontrol
      obtain ⟨rfl, hdata⟩ := h.addressee hs hr hsource
      -- the flood frame marks the peer and leaves it beaconing
      have hquiet : isReply r = false := by
        rcases hdata with hdata | hdata
        · exact hdata.not_isReply
        · exact absurd hcontrol (by simp [hdata.not_isControl])
      have hmarked : (s.step (.receive mac registers)).heard mac = true := by
        rw [step_receive hn]
        show Function.update s.heard mac (s.heard mac || s.hears mac n) mac = true
        rw [Function.update_self, hhears, hsource, beq_self_eq_true, Bool.or_true]
      rw [hquiet, if_neg Bool.false_ne_true] at hrole'
      exact hsound.silent mac none hmarked hrole'
  · rintro ⟨hresponder, hflood⟩
    apply h.receive hs hn registers htake
    · intro peer hrole
      split_ifs at hrole
    · intro src beacons' hdetects
      have hreply : isReply r = true := by
        by_contra hdata
        rw [if_neg hdata] at hdetects
        cases hdetects
      cases h.sender hs hr with
      | initiator hrole hdata => exact absurd hreply (by simp [hdata.not_isReply])
      | responder hrole hdata => exact hresponder hrole
      | source hrole hdata => exact ⟨_, hrole⟩
      | peer hrole hdata => exact absurd hreply (by simp [hdata.not_isReply])
    · intro hmarked detectedSrc hbeacons
      have hquiet : isReply r = false := by
        by_contra hdata
        rw [Bool.not_eq_false] at hdata
        rw [hdata, if_pos rfl] at hbeacons
        cases hbeacons
      rw [hquiet, if_neg Bool.false_ne_true] at hbeacons
      obtain ⟨rfl, rfl⟩ := Role.peer.inj hbeacons
      rcases hmarked with hbefore | hnow
      · exact h.silent mac none hbefore (by rw [role_of_node hn, hlistens])
      · rw [hhears, beq_iff_eq] at hnow
        have hcontrol := hflood rfl ⟨_, hnow⟩
        rcases (h.addressee hs hr hnow).2 with hdata | hdata
        · exact absurd hdata.isControl (by simp [hcontrol])
        · exact absurd hdata.isReply (by simp [hquiet])

/-! ## Runs -/

theorem beacons_of_detected {src : Mac} {beacons : Bool} (h : n.role = .peer (some src) beacons) :
    beacons = false := by
  cases n with
  | initiator x io => cases h
  | responder x io => cases h
  | source x => cases h
  | peer x =>
    obtain ⟨hdetected, hbeacons⟩ := Role.peer.inj h
    rw [← hbeacons, SimplexPeer.beacon_isSome, hdetected]
    simp

theorem SoundlyPaired.other (h : s.SoundlyPaired) (hs : s.Traced)
    (hother : ∀ mac registers, e ≠ .receive mac registers) (houtcome : Outcome s e s') :
    s'.SoundlyPaired := by
  cases houtcome with
  | skip _ => exact h
  | powerOn config hunicast hfresh => exact h.powerOn hs config hunicast hfresh
  | arrive k hn hf hreceived =>
    refine h.of_role_eq ?_ rfl
    rw [role_set, Node.role_rcvCb, update_role_self hn]
  | receive registers hn => exact absurd rfl (hother _ registers)
  | send ok hn hframe =>
    refine h.of_role_eq ?_ rfl
    show (s.set _ _).role = _
    rw [role_set, Node.role_sent, update_role_self hn]

theorem SoundlyPaired.receive_same (h : s.SoundlyPaired) (hs : s.Traced)
    (hn : s.nodes mac = some n) (registers : Bool)
    (htake : n.role.take n.pool.queue.head? = n.role)
    (hsilent : s.hears mac n = true → ∀ detectedSrc, n.role ≠ .peer detectedSrc true) :
    (s.step (.receive mac registers)).SoundlyPaired := by
  have hrole := role_of_node hn
  apply h.receive hs hn registers htake
  · exact fun peer hlocks => h.source mac peer (hlocks ▸ hrole)
  · exact fun src beacons hdetects => h.peer mac src beacons (hdetects ▸ hrole)
  · rintro (hbefore | hnow) detectedSrc hbeacons
    · exact h.silent mac detectedSrc hbefore (hbeacons ▸ hrole)
    · exact hsilent hnow detectedSrc hbeacons

theorem SoundlyPaired.step_iff (h : s.SoundlyPaired) (hs : s.Traced) (e : Event) :
    (s.step e).SoundlyPaired ↔ s.Undisturbed e := by
  cases e with
  | powerOn mac config =>
    exact iff_of_true (h.other hs (by rintro _ _ ⟨⟩) (s.step_outcome _)) trivial
  | arrive k mac => exact iff_of_true (h.other hs (by rintro _ _ ⟨⟩) (s.step_outcome _)) trivial
  | send mac ok => exact iff_of_true (h.other hs (by rintro _ _ ⟨⟩) (s.step_outcome _)) trivial
  | receive mac registers =>
    cases hn : s.nodes mac with
    | none =>
      have hstep : s.step (.receive mac registers) = s := by simp only [step, hn]
      rw [hstep]
      refine iff_of_true h ?_
      intro n r hn'
      rw [hn] at hn'
      cases hn'
    | some n =>
      cases hhead : n.pool.queue.head? with
      | none =>
        refine iff_of_true ?_ ?_
        · apply h.receive_same hs hn registers
          · rw [hhead, take_none]
          · intro hhears detectedSrc hbeacons
            cases detectedSrc with
            | some src => exact absurd (beacons_of_detected hbeacons) (by decide)
            | none =>
              rw [s.hears_beaconing mac hbeacons, hhead] at hhears
              cases hhears
        · intro n' r hn' hhead'
          rw [hn] at hn'
          cases hn'
          rw [hhead] at hhead'
          cases hhead'
      | some r =>
        -- only the first frame of the pool is looked at
        have hthis : s.Undisturbed (.receive mac registers) ↔ s.Harmless mac r n.role := by
          constructor
          · exact fun hall => hall n r hn hhead
          · intro hone n' r' hn' hhead'
            obtain rfl : n = n' := Option.some_inj.mp (hn.symm.trans hn')
            obtain rfl : r = r' := Option.some_inj.mp (hhead.symm.trans hhead')
            exact hone
        rw [hthis]
        cases hrole : n.role with
        | initiator =>
          refine iff_of_true (h.receive_same hs hn registers ?_ ?_) trivial
          · rw [hrole]; rfl
          · rw [hrole]
            rintro _ _ ⟨⟩
        | responder =>
          refine iff_of_true (h.receive_same hs hn registers ?_ ?_) trivial
          · rw [hrole]; rfl
          · rw [hrole]
            rintro _ _ ⟨⟩
        | source peerAddr =>
          cases peerAddr with
          -- the two roles that pair: a source that looks for its peer, and a beaconing peer
          | none => exact h.source_iff hs hn hrole hhead registers
          | some peer =>
            refine iff_of_true (h.receive_same hs hn registers ?_ ?_) trivial
            · rw [hrole]; rfl
            · rw [hrole]
              rintro _ _ ⟨⟩
        | peer detectedSrc beacons =>
          cases detectedSrc with
          | none => exact h.peer_iff hs hn hrole hhead registers
          | some src =>
            refine iff_of_true (h.receive_same hs hn registers ?_ ?_) trivial
            · rw [hrole]; rfl
            · rw [hrole, beacons_of_detected hrole]
              rintro _ _ ⟨⟩

end

/-- Pairing is sound throughout a run exactly when its sources and peers are undisturbed. -/
theorem soundlyPaired_iff (es : List Event) :
    Always step SoundlyPaired start es ↔ Along step Undisturbed start es := by
  apply always_iff_along (H := fun _ _ => True) (fun _ _ _ => trivial) traced_start
    soundlyPaired_start
  · exact fun s e hs hsound _ => hsound.step_iff hs e
  · exact fun s e hs _ _ _ => hs.step e

/-! ## Disturbances -/

theorem nodes_eq_none {es : List Event} {mac : Mac} (h : ∀ config, .powerOn mac config ∉ es) :
    (run step start es).nodes mac = none := by
  induction es using List.reverseRecOn with
  | nil => rfl
  | append_singleton es e ih =>
    have hoff := ih fun config hmem => h config (List.mem_append_left _ hmem)
    rw [run_concat, Option.eq_none_iff_forall_ne_some]
    intro n hn
    rcases ((run step start es).step_outcome e).node hn with
      hold | ⟨-, config, rfl, -⟩ | ⟨n', hn', -⟩
    · exact absurd (hoff.symm.trans hold) (by nofun)
    · exact h config (by simp)
    · exact absurd (hoff.symm.trans hn') (by nofun)

def mac (i : UInt8) : Mac := ⟨2, 0, 0, 0, 0, i⟩

def both : IOTaskConfig := ⟨true, true⟩

/-- A symmetric initiator's control frame reaches a source that looks for its peer. -/
def mistakenPeer : List Event :=
  [.powerOn (mac 1) (.initiator .default .boot both), .powerOn (mac 2) (.source .default),
    .send (mac 1) true, .arrive 0 (mac 2), .receive (mac 2) true]

/-- A symmetric responder's reply reaches a beaconing peer. -/
def mistakenSource : List Event :=
  [.powerOn (mac 1) (.initiator .default .boot both),
    .powerOn (mac 3) (.responder .esp32 .default false .boot both), .powerOn (mac 4) (.peer true),
    .send (mac 1) true, .arrive 0 (mac 3), .receive (mac 3) true, .send (mac 3) true,
    .arrive 1 (mac 4), .receive (mac 4) true]

/-- A source finds its peer, its hello is lost, and its first flood frame arrives. -/
def lostHello : List Event :=
  [.powerOn (mac 2) (.source .default), .powerOn (mac 4) (.peer true), .send (mac 4) true,
    .arrive 0 (mac 2), .receive (mac 2) true, .send (mac 2) false, .send (mac 2) true,
    .arrive 2 (mac 4), .receive (mac 4) true]

/-- A source locks onto a symmetric initiator, a peer leaves its beacon phase where there is no
source at all, and one that takes in its source's flood goes on beaconing. -/
theorem not_soundlyPaired :
    ¬ Always step LockPeers start mistakenPeer ∧
      ¬ Always step LeaveWhenLocked start mistakenSource ∧
      ¬ Always step SilentOnceHeard start lostHello := by
  refine ⟨fun h => ?_, fun h => ?_, fun h => ?_⟩
  · have hlocked : (run step start mistakenPeer).role (mac 2) =
        some (.source (some (mac 1))) := by decide +kernel
    obtain ⟨_, _, hpeer⟩ := h.last _ _ hlocked
    have hinitiator : (run step start mistakenPeer).role (mac 1) = some .initiator := by
      decide +kernel
    exact absurd (hpeer.symm.trans hinitiator) (by nofun)
  · have hdetected : (run step start mistakenSource).role (mac 4) =
        some (.peer (some (mac 3)) false) := by decide +kernel
    obtain ⟨src, hlocked⟩ := h.last _ _ _ hdetected
    have hon : src = mac 1 ∨ src = mac 3 ∨ src = mac 4 := by
      by_contra hoff
      simp only [not_or] at hoff
      obtain ⟨h1, h3, h4⟩ := hoff
      have hnone : (run step start mistakenSource).nodes src = none := by
        apply nodes_eq_none
        simp [mistakenSource, h1, h3, h4]
      rw [role, hnone] at hlocked
      cases hlocked
    rcases hon with rfl | rfl | rfl
    all_goals exact absurd hlocked (by decide +kernel)
  · exact absurd (by decide +kernel) (h.last (mac 4) none (by decide +kernel))

end EspCsi.EspNow.Network
