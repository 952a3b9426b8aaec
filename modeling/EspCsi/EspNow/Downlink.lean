import Mathlib.Data.List.Dedup
import EspCsi.EspNow.Initiator
import EspCsi.Lib.Transition

/-!
# The downlink target

When the control target is what the set of accepted sources calls for. The peer map holds the
sources accepted since it last gave up its contents for room, and those alone.
-/

namespace EspCsi.EspNow

open Wire Transition

/-! ## What the peer map remembers -/

def recentStep (l : List Mac) (mac : Mac) : List Mac :=
  if mac ∉ l ∧ l.dedup.length = RX_TRACKED_PEERS_CAPACITY then [mac] else l ++ [mac]

/-- The sources accepted since the last overflow, of all those accepted so far. -/
def recent (accepted : List Mac) : List Mac := accepted.foldl recentStep []

theorem recent_concat (l : List Mac) (mac : Mac) :
    recent (l ++ [mac]) = recentStep (recent l) mac := by
  simp [recent]

def KnownPeers.Knows (k : KnownPeers) (l : List Mac) : Prop := ∀ mac, mac ∈ k.keys ↔ mac ∈ l

namespace KnownPeers.Knows

theorem perm {k : KnownPeers} {l : List Mac} (h : k.Knows l) : k.keys.Perm l.dedup := by
  rw [List.perm_ext_iff_of_nodup k.nodup l.nodup_dedup]
  intro mac
  rw [List.mem_dedup]
  exact h mac

theorem learn {k : KnownPeers} {l : List Mac} (h : k.Knows l) (mac : Mac) :
    (k.learn mac).Knows (recentStep l mac) := by
  have hlen : k.keys.length = l.dedup.length := h.perm.length_eq
  have hbounded := k.bounded
  intro mac'
  unfold KnownPeers.learn recentStep
  by_cases hmem : mac ∈ k.keys
  · have hl : mac ∈ l := (h mac).mp hmem
    have hkeep : ¬ (mac ∉ l ∧ l.dedup.length = RX_TRACKED_PEERS_CAPACITY) := fun hc => hc.1 hl
    rw [dif_pos hmem, if_neg hkeep, h mac', List.mem_append, List.mem_singleton]
    refine ⟨.inl, ?_⟩
    rintro (hold | rfl)
    · exact hold
    · exact hl
  · have hl : mac ∉ l := fun hl => hmem ((h mac).mpr hl)
    rw [dif_neg hmem]
    by_cases hroom : k.keys.length < RX_TRACKED_PEERS_CAPACITY
    · have hkeep : ¬ (mac ∉ l ∧ l.dedup.length = RX_TRACKED_PEERS_CAPACITY) := fun hc => by omega
      rw [dif_pos hroom, if_neg hkeep, List.mem_append, List.mem_append, h mac']
    · have hover : mac ∉ l ∧ l.dedup.length = RX_TRACKED_PEERS_CAPACITY := ⟨hl, by omega⟩
      rw [dif_neg hroom, if_pos hover, KnownPeers.only]

end KnownPeers.Knows

/-- The target that a set of accepted sources calls for: the sole one, or everyone. -/
def soleOrBroadcast (l : List Mac) : Mac :=
  match l.dedup with
  | [only] => only
  | _ => BROADCAST_ADDRESS

theorem downlinkTarget_of_knows {k : KnownPeers} {l : List Mac} (h : k.Knows l) :
    downlinkTarget none k = soleOrBroadcast l := by
  have hperm := h.perm
  unfold downlinkTarget soleOrBroadcast
  cases hdedup : l.dedup with
  | nil =>
    rw [hdedup] at hperm
    simp [hperm.eq_nil]
  | cons only rest =>
    rw [hdedup] at hperm
    cases rest with
    | nil => simp [hperm.eq_singleton]
    | cons other rest =>
      have hlen := hperm.length_eq
      match hkeys : k.keys with
      | [] => simp [hkeys] at hlen
      | [x] => simp [hkeys] at hlen
      | x :: y :: zs => rfl

/-! ## How many sources -/

theorem distinct_concat (l : List Mac) (mac : Mac) :
    (l ++ [mac]).dedup.length = if mac ∈ l then l.dedup.length else l.dedup.length + 1 := by
  have hperm : (l ++ [mac]).dedup.Perm (mac :: l).dedup := (List.perm_append_singleton mac l).dedup
  rw [hperm.length_eq]
  split_ifs with hmem
  · rw [List.dedup_cons_of_mem hmem]
  · rw [List.dedup_cons_of_notMem hmem, List.length_cons]

theorem distinct_append_le (l l' : List Mac) : l.dedup.length ≤ (l ++ l').dedup.length := by
  induction l' using List.reverseRecOn with
  | nil => simp
  | append_singleton l' mac ih =>
    rw [← List.append_assoc, distinct_concat]
    split_ifs <;> omega

theorem recent_eq_self {l : List Mac} (h : l.dedup.length ≤ RX_TRACKED_PEERS_CAPACITY) :
    recent l = l := by
  induction l using List.reverseRecOn with
  | nil => rfl
  | append_singleton l mac ih =>
    have hle := distinct_append_le l [mac]
    rw [recent_concat, ih (hle.trans h), recentStep]
    rw [distinct_concat] at h
    apply if_neg
    rintro ⟨hmem, hfull⟩
    rw [if_neg hmem] at h
    omega

theorem recent_overflow {l : List Mac} {mac : Mac}
    (h : l.dedup.length = RX_TRACKED_PEERS_CAPACITY) (hmem : mac ∉ l) :
    recent (l ++ [mac]) = [mac] := by
  rw [recent_concat, recent_eq_self h.le, recentStep, if_pos ⟨hmem, h⟩]

theorem soleOrBroadcast_eq_broadcast_iff (l : List Mac) :
    soleOrBroadcast l = BROADCAST_ADDRESS ↔
      ∀ mac, l.dedup = [mac] → mac = BROADCAST_ADDRESS := by
  unfold soleOrBroadcast
  cases l.dedup with
  | nil => simp
  | cons only rest =>
    cases rest with
    | nil => simp
    | cons other rest => simp

/-! ## Receive passes -/

namespace Downlink

/-- The map knows the sources accepted since the last overflow, and the target is theirs. -/
structure Tracks (d : Downlink) : Prop where
  knows : d.knownPeers.Knows (recent d.accepted)
  txTarget : d.txTarget = downlinkTarget none d.knownPeers

theorem tracks_start : (start none).Tracks := ⟨fun _ => Iff.rfl, rfl⟩

theorem knows_fold {k : KnownPeers} {accepted : List Mac} (h : k.Knows (recent accepted))
    (rs : List PoolFrame) :
    (rs.foldl (handleResponderPacket none) k).Knows
      (recent (accepted ++ (rs.filter (acceptsReply none)).map PoolFrame.srcAddress)) := by
  induction rs generalizing k accepted with
  | nil => simpa using h
  | cons r rs ih =>
    rw [List.foldl_cons, handleResponderPacket]
    by_cases hacc : acceptsReply none r = true
    · have hnext : (k.learn r.srcAddress).Knows (recent (accepted ++ [r.srcAddress])) := by
        rw [recent_concat]
        exact h.learn r.srcAddress
      rw [if_pos hacc, List.filter_cons_of_pos hacc, List.map_cons, List.append_cons]
      exact ih hnext
    · rw [if_neg hacc, List.filter_cons_of_neg hacc]
      exact ih h

theorem Tracks.receivePass {d : Downlink} (h : d.Tracks) (rs : List PoolFrame) :
    (d.receivePass none rs).Tracks :=
  ⟨knows_fold h.knows rs, rfl⟩

theorem Tracks.txTarget_eq {d : Downlink} (h : d.Tracks) :
    d.txTarget = soleOrBroadcast (recent d.accepted) := by
  rw [h.txTarget, downlinkTarget_of_knows h.knows]

def OnTarget (d : Downlink) : Prop := d.txTarget = soleOrBroadcast d.accepted

/-- Where more sources than the map holds have been accepted, more than one has been since it last
overflowed. -/
def Settled (d : Downlink) : Prop :=
  RX_TRACKED_PEERS_CAPACITY < d.accepted.dedup.length →
    ∀ mac, (recent d.accepted).dedup = [mac] → mac = BROADCAST_ADDRESS

theorem Tracks.onTarget_iff {d : Downlink} (h : d.Tracks) : d.OnTarget ↔ d.Settled := by
  rw [OnTarget, h.txTarget_eq, Settled]
  by_cases hfew : d.accepted.dedup.length ≤ RX_TRACKED_PEERS_CAPACITY
  · rw [recent_eq_self hfew]
    exact iff_of_true rfl fun hmany => absurd hmany (by omega)
  · have hall : soleOrBroadcast d.accepted = BROADCAST_ADDRESS := by
      rw [soleOrBroadcast_eq_broadcast_iff]
      intro mac hone
      rw [hone, List.length_singleton, RX_TRACKED_PEERS_CAPACITY] at hfew
      omega
    rw [hall, soleOrBroadcast_eq_broadcast_iff]
    exact ⟨fun hsole _ => hsole, fun hsettled => hsettled (by omega)⟩

theorem accepted_of_burst (d : Downlink) {rs : List PoolFrame}
    (hburst : rs.length ≤ rxBurstDrainLimit true) :
    (d.receivePass none rs).accepted = d.accepted ∨
      ∃ r ∈ rs, (d.receivePass none rs).accepted = d.accepted ++ [r.srcAddress] := by
  match rs, hburst with
  | [], _ => exact .inl (List.append_nil _)
  | [r], _ =>
    simp only [Downlink.receivePass]
    by_cases hacc : acceptsReply none r = true
    · exact .inr ⟨r, by simp, by simp [hacc]⟩
    · exact .inl (by simp [hacc])

theorem settled_iff_few {passes : List (List PoolFrame)}
    (hburst : ∀ rs ∈ passes, rs.length ≤ rxBurstDrainLimit true)
    (hsource : ∀ rs ∈ passes, ∀ r ∈ rs, r.srcAddress ≠ BROADCAST_ADDRESS) :
    Always (receivePass none) Settled (start none) passes ↔
      (run (receivePass none) (start none) passes).accepted.dedup.length ≤
        RX_TRACKED_PEERS_CAPACITY := by
  induction passes using List.reverseRecOn with
  | nil => simp [Settled, start]
  | append_singleton passes rs ih =>
    have ih := ih (fun rs hrs => hburst rs (by simp [hrs])) (fun rs hrs => hsource rs (by simp [hrs]))
    rw [always_concat, ih, run_concat]
    generalize run (Downlink.receivePass none) (start none) passes = d
    rcases d.accepted_of_burst (hburst rs (by simp)) with hsame | ⟨r, hr, hnew⟩
    · rw [Settled, hsame]
      exact ⟨And.left, fun hfew => ⟨hfew, fun hmany => absurd hmany (by omega)⟩⟩
    · rw [Settled, hnew]
      have hle := distinct_append_le d.accepted [r.srcAddress]
      constructor
      · rintro ⟨hfew, hsettled⟩
        by_contra hmany
        have hcount := distinct_concat d.accepted r.srcAddress
        -- the first source past the capacity: it is the only one the map keeps
        have hmem : r.srcAddress ∉ d.accepted := fun hmem => by
          rw [if_pos hmem] at hcount
          omega
        rw [if_neg hmem] at hcount
        rw [recent_overflow (by omega) hmem] at hsettled
        exact hsource rs (by simp) r hr (hsettled (by omega) _ (by simp))
      · intro hfew
        exact ⟨by omega, fun hmany => absurd hmany (by omega)⟩

theorem tracks_run (passes : List (List PoolFrame)) :
    Always (receivePass none) Tracks (start none) passes :=
  always_of_step tracks_start fun _ rs h => h.receivePass rs

/-- Over any receive passes of an initiator that pairs automatically, the target is right after each
exactly when no pass leaves one source alone after an overflow. With the transmit task enabled, that
is when at most sixteen sources are accepted. -/
theorem onTarget_iff_settled (passes : List (List PoolFrame)) :
    (Always (receivePass none) OnTarget (start none) passes ↔
      Always (receivePass none) Settled (start none) passes) ∧
    ((∀ rs ∈ passes, rs.length ≤ rxBurstDrainLimit true) →
      (∀ rs ∈ passes, ∀ r ∈ rs, r.srcAddress ≠ BROADCAST_ADDRESS) →
      (Always (receivePass none) OnTarget (start none) passes ↔
        (run (receivePass none) (start none) passes).accepted.dedup.length ≤
          RX_TRACKED_PEERS_CAPACITY)) := by
  have hiff : Always (receivePass none) OnTarget (start none) passes ↔
      Always (receivePass none) Settled (start none) passes :=
    forall₂_congr fun pre hpre => (tracks_run passes pre hpre).onTarget_iff
  refine ⟨hiff, fun hburst hsource => ?_⟩
  rw [hiff]
  exact settled_iff_few hburst hsource

def replyFrom (i : ℕ) : PoolFrame where
  srcAddress := ⟨2, 0, 0, 0, 0, UInt8.ofNat i⟩
  data := tagged responderPacketCodec ⟨⟩ RESPONDER_MAGIC_NUMBER true
  nth := 0

theorem onTarget_two :
    Always (receivePass none) OnTarget (start none)
      [[replyFrom 0], [], [{ replyFrom 1 with data := [] }], [replyFrom 1], [replyFrom 0]] :=
  ((onTarget_iff_settled _).2 (by decide +kernel) (by decide +kernel)).mpr (by decide +kernel)

instance (d : Downlink) : Decidable d.OnTarget := inferInstanceAs (Decidable (_ = _))

/-- The seventeenth responder's reply moves the control traffic to it alone. -/
theorem offTarget_seventeenth :
    let d := run (receivePass none) (start none) ((List.range 17).map fun i => [replyFrom i])
    d.accepted.dedup.length = 17 ∧ d.txTarget = (replyFrom 16).srcAddress ∧ ¬ d.OnTarget := by
  decide +kernel

end Downlink

end EspCsi.EspNow
