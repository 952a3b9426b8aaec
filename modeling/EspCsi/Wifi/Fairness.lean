import EspCsi.Wifi.Flood

/-!
# Fair floods

How the datagrams of the floods to several addresses spread over them. The flood in turn picks its
address once a pass, and a pass may enqueue several datagrams; the flood at once begins its round again
at the first address after every whole one.
-/

namespace EspCsi.Wifi

open Transition RoundRobin

namespace Served

/-- `P` holds of the datagrams enqueued since the addresses were last replaced, and held of those
before each replacement. -/
def All (P : ℕ → List ℕ → Prop) (s : Served) : Prop :=
  P s.dsts.length s.frames ∧ ∀ e ∈ s.earlier, P e.1 e.2

instance (P : ℕ → List ℕ → Prop) [∀ n xs, Decidable (P n xs)] (s : Served) : Decidable (s.All P) :=
  inferInstanceAs (Decidable (_ ∧ _))

theorem length_pos (s : Served) : 0 < s.dsts.length := List.length_pos_of_ne_nil s.nonempty

theorem all_replace {P : ℕ → List ℕ → Prop} (hnil : ∀ n, P n []) (s : Served)
    {updated : List Ipv4Addr} (h : updated ≠ []) : (s.replace updated h).All P ↔ s.All P := by
  simp only [All, replace, List.forall_mem_append, List.forall_mem_singleton, hnil, true_and]
  exact and_comm

end Served

/-! ## In turn -/

namespace IcmpFloodMulti

/-- Datagram `k` since the refresh went to place `k mod n`, and no place got two more than another. -/
def InTurn (n : ℕ) (xs : List ℕ) : Prop := RoundRobin.InTurn n xs ∧ Even n xs

instance (n : ℕ) (xs : List ℕ) : Decidable (InTurn n xs) := inferInstanceAs (Decidable (_ ∧ _))

/-- The pass finds its deadline due, and the socket takes a datagram. -/
def Sends (s : IcmpFloodMulti) (p : MultiPass) : Prop :=
  s.cadence.clamp s.interval p.nowUs ≤ p.nowUs ∧ p.accepted ≠ []

instance (s : IcmpFloodMulti) (p : MultiPass) : Decidable (s.Sends p) :=
  inferInstanceAs (Decidable (_ ∧ _))

/-- The clock read after the first datagram finds the next deadline due too, and the socket takes
another. -/
def SendsAgain (s : IcmpFloodMulti) (p : MultiPass) : Prop :=
  match p.accepted with
  | a :: _ :: _ => s.cadence.clamp s.interval p.nowUs ≤ p.nowUs ∧
      s.cadence.clamp s.interval p.nowUs + s.interval ≤ a.nowUs
  | _ => False

instance (s : IcmpFloodMulti) : (p : MultiPass) → Decidable (s.SendsAgain p)
  | ⟨_, [], _⟩ => isFalse id
  | ⟨_, [_], _⟩ => isFalse id
  | ⟨_, _ :: _ :: _, _⟩ => inferInstanceAs (Decidable (_ ∧ _))

/-- A pass that sends has one address to send to, or sends once; and its index, which wraps at 32 bits,
still counts the datagrams modulo the number of addresses. -/
def Single (s : IcmpFloodMulti) (p : MultiPass) : Prop :=
  s.Sends p →
    s.served.frames.length % 2 ^ 32 % s.served.dsts.length =
        s.served.frames.length % s.served.dsts.length ∧
      (¬ s.SendsAgain p ∨ s.served.dsts.length = 1)

instance (s : IcmpFloodMulti) (p : MultiPass) : Decidable (s.Single p) :=
  inferInstanceAs (Decidable (_ → _))

def Counts (s : IcmpFloodMulti) : Prop := s.dstIdx.toNat = s.served.frames.length % 2 ^ 32

theorem length_catchUp (interval burstBudget nowUs nextTxUs : ℕ) (accepted : List Accepted) :
    ((catchUp interval (burstBudget + 2) nowUs nextTxUs accepted).sent.length ≠ 0 ↔
        nextTxUs ≤ nowUs ∧ accepted ≠ []) ∧
      ((catchUp interval (burstBudget + 2) nowUs nextTxUs accepted).sent.length ≤ 1 ↔
        ¬ match accepted with
          | a :: _ :: _ => nextTxUs ≤ nowUs ∧ nextTxUs + interval ≤ a.nowUs
          | _ => False) := by
  match accepted with
  | [] => simp [catchUp]
  | [a] =>
    simp only [catchUp]
    split_ifs with hdue <;> simp [hdue]
  | a :: b :: accepted =>
    simp only [catchUp]
    split_ifs with hdue hagain <;> simp [hdue]
    all_goals omega

theorem length_sent (s : IcmpFloodMulti) (p : MultiPass) :
    ((s.cadence.catchUp s.interval p.nowUs p.accepted).sent.length ≠ 0 ↔ s.Sends p) ∧
      ((s.cadence.catchUp s.interval p.nowUs p.accepted).sent.length ≤ 1 ↔ ¬ s.SendsAgain p) :=
  length_catchUp s.interval 14 p.nowUs (s.cadence.clamp s.interval p.nowUs) p.accepted

theorem all_report (s : IcmpFloodMulti) (updated : Option (List Ipv4Addr)) :
    (s.report updated).served.All InTurn ↔ s.served.All InTurn := by
  have hnil (n : ℕ) : InTurn n [] := ⟨inTurn_nil n, (ahead_nil n).even⟩
  unfold report
  cases updated with
  | none => split_ifs <;> rfl
  | some updated =>
    dsimp only
    split_ifs with hdue hreplaces
    · exact s.served.all_replace hnil hreplaces.1
    · rfl
    · rfl

theorem counts_report {s : IcmpFloodMulti} (h : s.Counts) (updated : Option (List Ipv4Addr)) :
    (s.report updated).Counts := by
  unfold report
  cases updated with
  | none => split_ifs <;> exact h
  | some updated =>
    dsimp only
    split_ifs
    · rfl
    · exact h
    · exact h

theorem counts_burst {s : IcmpFloodMulti} (h : s.Counts) (p : MultiPass) : (s.burst p).Counts := by
  unfold Counts at h ⊢
  simp only [burst, Served.enqueue, List.length_append, List.length_replicate, UInt32.toNat_add, h,
    UInt32.toNat_ofNat']
  omega

theorem all_burst_iff {s : IcmpFloodMulti} (hcounts : s.Counts) (h : s.served.All InTurn)
    (p : MultiPass) : (s.burst p).served.All InTurn ↔ s.Single p := by
  have hpos := s.served.length_pos
  have hidx : s.dstIdx.toNat = s.served.frames.length % 2 ^ 32 := hcounts
  obtain ⟨hsends, hagain⟩ := s.length_sent p
  have hturn := inTurn_append_replicate hpos h.1.1
    (m := (s.cadence.catchUp s.interval p.nowUs p.accepted).sent.length)
    (Nat.mod_lt s.dstIdx.toNat hpos)
  rw [hsends, hagain, hidx] at hturn
  -- what goes in turn is even, so that the second half of `InTurn` adds nothing here
  have hboth : (s.burst p).served.All InTurn ↔
      RoundRobin.InTurn s.served.dsts.length (s.burst p).served.frames :=
    ⟨fun hall => hall.1.1, fun hin => ⟨⟨hin, hin.even hpos⟩, h.2⟩⟩
  rw [hboth]
  simp only [burst, Served.enqueue, hidx]
  exact hturn

/-- The flood serves its addresses in turn exactly as long as no pass sends twice, unless there is
one address, or sends by an index that has wrapped out of step. -/
theorem inTurn_iff (dsts : List Ipv4Addr) (h : dsts ≠ []) (frequencyHz : Option UInt16) (nowUs : ℕ)
    (ps : List MultiPass) :
    Always pass (fun s => s.served.All InTurn) (start dsts h frequencyHz nowUs) ps ↔
      Along pass Single (start dsts h frequencyHz nowUs) ps := by
  apply always_iff_along (I := Counts) (H := fun _ _ => True) (fun _ _ _ => trivial)
  · rfl
  · exact ⟨⟨inTurn_nil _, (ahead_nil _).even⟩, by simp [start, Served.start]⟩
  · intro s p hcounts hall _
    rw [pass, all_report]
    exact all_burst_iff hcounts hall p
  · intro s p hcounts _ _ _
    exact counts_report (counts_burst hcounts p) p.updated

/-- Two passes in time, one datagram each. -/
theorem inTurn_in_time :
    Always pass (fun s => s.served.All InTurn)
      (start [⟨192, 168, 2, 2⟩, ⟨192, 168, 2, 3⟩] (by decide) (some 100) 0)
      [⟨10000, [⟨10000, 10000⟩], none⟩, ⟨20000, [⟨20000, 20000⟩], none⟩] :=
  (inTurn_iff _ (by decide) _ _ _).mpr (by decide +kernel)

/-- A pass that is one interval late enqueues two datagrams, both for the first of two stations. -/
theorem not_inTurn_late :
    ¬ Always pass (fun s => s.served.All InTurn)
      (start [⟨192, 168, 2, 2⟩, ⟨192, 168, 2, 3⟩] (by decide) (some 100) 0)
      [⟨20000, [⟨20000, 20000⟩, ⟨20000, 20000⟩], some []⟩] :=
  fun h => absurd h.last (by decide +kernel)

end IcmpFloodMulti

/-! ## At once -/

/-- `run_icmp_flood_burst`. Nothing of the crate reads `rewound`, which says that since the refresh a
round that began behind the first address has gone out whole. -/
structure IcmpFloodBurst where
  interval : ℕ
  served : Served
  burstStart : ℕ
  nextTxUs : ℕ
  nowUs : ℕ
  lastReportUs : ℕ
  rewound : Bool

/-- A pass of the loop: its first reading, how many datagrams the socket would take before it refuses
one, the reading after them, and what `refresh_targets` would return, if there is one. -/
structure BurstPass where
  nowUs : ℕ
  accepted : ℕ
  afterUs : ℕ
  updated : Option (List Ipv4Addr)
deriving DecidableEq, Repr

namespace IcmpFloodBurst

def start (dsts : List Ipv4Addr) (h : dsts ≠ []) (frequencyHz : Option UInt16) (nowUs : ℕ) :
    IcmpFloodBurst where
  interval := txIntervalUs frequencyHz
  served := .start dsts h
  burstStart := 0
  nextTxUs := nowUs + txIntervalUs frequencyHz
  nowUs
  lastReportUs := nowUs
  rewound := false

/-- `for i in 0..n`, from `i` on: the places served, and where the socket refused one. -/
def offer (n burstStart : ℕ) : ℕ → ℕ → ℕ → List ℕ × Option ℕ
  | 0, _, _ => ([], none)
  | _ + 1, i, 0 => ([], some i)
  | left + 1, i, accepted + 1 =>
    let rest := offer n burstStart left (i + 1) accepted
    ((burstStart + i) % n :: rest.1, rest.2)

/-- A round over all addresses, if one is due. The round after one cut short begins where that one
missed out. -/
def burst (s : IcmpFloodBurst) (p : BurstPass) : IcmpFloodBurst :=
  let nextTxUs := max s.nextTxUs (p.nowUs - s.interval * ICMP_FLOOD_CATCH_UP_BURST)
  if nextTxUs ≤ p.nowUs then
    let n := s.served.dsts.length
    let (places, blocked) := offer n s.burstStart n 0 p.accepted
    { s with
      served := s.served.enqueue places
      burstStart :=
        match blocked with
        -- also where `i` is 0: the index stays
        | some i => (s.burstStart + i) % n
        | none => if places ≠ [] then 0 else s.burstStart
      nextTxUs := nextTxUs + s.interval
      nowUs := p.afterUs
      rewound := s.rewound || (blocked.isNone && decide (s.burstStart ≠ 0)) }
  else { s with nextTxUs, nowUs := p.nowUs }

def report (s : IcmpFloodBurst) (updated : Option (List Ipv4Addr)) : IcmpFloodBurst :=
  if s.nowUs - s.lastReportUs ≥ ICMP_FLOOD_REPORT_INTERVAL_US then
    let s := { s with lastReportUs := s.nowUs }
    match updated with
    | some updated =>
      if h : s.served.Replaces updated then
        { s with served := s.served.replace updated h.1, burstStart := 0, rewound := false }
      else s
    | none => s
  else s

def pass (s : IcmpFloodBurst) (p : BurstPass) : IcmpFloodBurst := (s.burst p).report p.updated

/-- The pass has a round cut short after a datagram at least. -/
def CutShort (s : IcmpFloodBurst) (p : BurstPass) : Prop :=
  max s.nextTxUs (p.nowUs - s.interval * ICMP_FLOOD_CATCH_UP_BURST) ≤ p.nowUs ∧
    0 < p.accepted ∧ p.accepted < s.served.dsts.length

/-- No round is cut short once one that began behind the first address has gone out whole. -/
def Repays (s : IcmpFloodBurst) (p : BurstPass) : Prop := s.rewound = true → ¬ s.CutShort p

instance (s : IcmpFloodBurst) (p : BurstPass) : Decidable (s.Repays p) :=
  inferInstanceAs (Decidable (_ = true → ¬ (_ ∧ _)))

/-- The first places, up to where the next round begins, are one ahead; after a rewind some are, and
the round begins at the first. -/
structure Fair (s : IcmpFloodBurst) : Prop where
  start_lt : s.burstStart < s.served.dsts.length
  ahead : ∃ c a, Ahead s.served.dsts.length c a s.served.frames ∧ a < s.served.dsts.length ∧
    if s.rewound then 0 < a ∧ s.burstStart = 0 else a = s.burstStart

theorem offer_eq (n burstStart left i accepted : ℕ) :
    offer n burstStart left i accepted =
      ((List.range (min accepted left)).map fun j => (burstStart + (i + j)) % n,
        if accepted < left then some (i + accepted) else none) := by
  induction left generalizing i accepted with
  | zero => simp [offer]
  | succ left ih =>
    cases accepted with
    | zero => simp [offer]
    | succ accepted =>
      have hshift : (fun j => (burstStart + (i + 1 + j)) % n) =
          (fun j => (burstStart + (i + j)) % n) ∘ Nat.succ := by
        funext j
        rw [Function.comp_apply, Nat.succ_eq_add_one, Nat.add_assoc i 1 j, Nat.add_comm 1 j]
      have hplace : i + 1 + accepted = i + (accepted + 1) := by omega
      rw [offer, ih, Nat.succ_min_succ, List.range_succ_eq_map, List.map_cons, List.map_map, hshift,
        hplace]
      simp only [Nat.add_zero, Nat.add_lt_add_iff_right]

theorem offer_round (n burstStart accepted : ℕ) :
    offer n burstStart n 0 accepted =
      (stretch n burstStart (min accepted n), if accepted < n then some accepted else none) := by
  simp [offer_eq, stretch]

/-- A pass enqueues nothing, a round cut short or a whole one. -/
inductive Rounds (s : IcmpFloodBurst) (p : BurstPass) : IcmpFloodBurst → Prop
  | idle (nextTxUs nowUs : ℕ) (h : ¬ s.CutShort p) : Rounds s p { s with nextTxUs, nowUs }
  | cut (nextTxUs nowUs : ℕ) (h : s.CutShort p) :
      Rounds s p
        { s with
          nextTxUs
          nowUs
          served := s.served.enqueue (stretch s.served.dsts.length s.burstStart p.accepted)
          burstStart := (s.burstStart + p.accepted) % s.served.dsts.length }
  | whole (nextTxUs nowUs : ℕ) (h : ¬ s.CutShort p) :
      Rounds s p
        { s with
          nextTxUs
          nowUs
          served := s.served.enqueue
            (stretch s.served.dsts.length s.burstStart s.served.dsts.length)
          burstStart := 0
          rewound := s.rewound || decide (s.burstStart ≠ 0) }

theorem rounds_burst {s : IcmpFloodBurst} (hlt : s.burstStart < s.served.dsts.length)
    (p : BurstPass) : s.Rounds p (s.burst p) := by
  have hpos := s.served.length_pos
  unfold burst
  simp only [offer_round]
  by_cases hdue : max s.nextTxUs (p.nowUs - s.interval * ICMP_FLOOD_CATCH_UP_BURST) ≤ p.nowUs
  · rw [if_pos hdue]
    by_cases hcut : p.accepted < s.served.dsts.length
    · rw [if_pos hcut, Nat.min_eq_left hcut.le]
      rcases Nat.eq_zero_or_pos p.accepted with hzero | htook
      -- a round refused at once changes the deadline only
      · have hnone : ¬ s.CutShort p := fun h => absurd h.2.1 (by omega)
        have hidle := Rounds.idle
          (max s.nextTxUs (p.nowUs - s.interval * ICMP_FLOOD_CATCH_UP_BURST) + s.interval)
          p.afterUs hnone
        simpa [hzero, stretch, Served.enqueue, Nat.mod_eq_of_lt hlt] using hidle
      · simpa using Rounds.cut _ _ ⟨hdue, htook, hcut⟩
    · have hwhole : ¬ s.CutShort p := fun h => hcut h.2.2
      have hplaces : stretch s.served.dsts.length s.burstStart s.served.dsts.length ≠ [] := by
        simpa [stretch] using s.served.nonempty
      rw [if_neg hcut, Nat.min_eq_right (Nat.le_of_not_lt hcut)]
      simpa [hplaces] using Rounds.whole _ _ hwhole
  · rw [if_neg hdue]
    exact .idle _ _ fun h => hdue h.1

theorem Rounds.served {s s' : IcmpFloodBurst} {p : BurstPass} (h : s.Rounds p s') :
    s'.served.dsts = s.served.dsts ∧ s'.served.earlier = s.served.earlier := by
  cases h <;> exact ⟨rfl, rfl⟩

theorem fair_start (dsts : List Ipv4Addr) (h : dsts ≠ []) (frequencyHz : Option UInt16)
    (nowUs : ℕ) : (start dsts h frequencyHz nowUs).Fair where
  start_lt := List.length_pos_of_ne_nil h
  ahead := ⟨0, 0, ahead_nil _, List.length_pos_of_ne_nil h, rfl⟩

theorem all_report (s : IcmpFloodBurst) (updated : Option (List Ipv4Addr)) :
    (s.report updated).served.All Even ↔ s.served.All Even := by
  have hnil (n : ℕ) : Even n [] := (ahead_nil n).even
  unfold report
  cases updated with
  | none => split_ifs <;> rfl
  | some updated =>
    dsimp only
    split_ifs with hdue hreplaces
    · exact s.served.all_replace hnil hreplaces.1
    · rfl
    · rfl

theorem Fair.report {s : IcmpFloodBurst} (h : s.Fair) (updated : Option (List Ipv4Addr)) :
    (s.report updated).Fair := by
  unfold IcmpFloodBurst.report
  cases updated with
  | none => split_ifs <;> exact ⟨h.start_lt, h.ahead⟩
  | some updated =>
    dsimp only
    split_ifs with hdue hreplaces
    · exact ⟨List.length_pos_of_ne_nil hreplaces.1, 0, 0, ahead_nil _,
        List.length_pos_of_ne_nil hreplaces.1, rfl⟩
    · exact ⟨h.start_lt, h.ahead⟩
    · exact ⟨h.start_lt, h.ahead⟩

theorem Fair.burst {s : IcmpFloodBurst} (h : s.Fair) {p : BurstPass} (hrepays : s.Repays p) :
    (s.burst p).Fair ∧ Even s.served.dsts.length (s.burst p).served.frames := by
  have hpos := s.served.length_pos
  obtain ⟨c, a, hahead, ha, hstart⟩ := h.ahead
  have hrounds := rounds_burst h.start_lt p
  generalize s.burst p = s' at hrounds
  cases hrounds with
  | idle nextTxUs nowUs hcut => exact ⟨⟨h.start_lt, c, a, hahead, ha, hstart⟩, hahead.even⟩
  | cut nextTxUs nowUs hcut =>
    -- not rewound, so that the round begins behind the places that are one ahead
    have hrewound : ¬ s.rewound = true := fun hr => hrepays hr hcut
    rw [if_neg hrewound] at hstart
    subst hstart
    obtain ⟨c', hahead'⟩ := hahead.append_stretch ha hcut.2.2
    refine ⟨⟨Nat.mod_lt _ hpos, c', _, hahead', Nat.mod_lt _ hpos, ?_⟩, hahead'.even⟩
    exact (if_neg hrewound).mpr rfl
  | whole nextTxUs nowUs hcut =>
    have hahead' := hahead.append_round h.start_lt
    refine ⟨⟨hpos, c + 1, a, hahead', ha, ?_⟩, hahead'.even⟩
    dsimp only
    by_cases hrewound : s.rewound = true
    · rw [if_pos hrewound] at hstart
      simpa [hrewound] using hstart.1
    · rw [if_neg hrewound] at hstart
      by_cases hfirst : s.burstStart = 0
      · simpa [hrewound, hfirst] using hstart
      · simpa [hrewound, hfirst, hstart] using Nat.pos_of_ne_zero hfirst

/-- A round cut short after a rewind is not made up for. -/
theorem Fair.not_even {s : IcmpFloodBurst} (h : s.Fair) {p : BurstPass} (hrepays : ¬ s.Repays p) :
    ¬ Even s.served.dsts.length (s.burst p).served.frames := by
  obtain ⟨hrewound, hcut⟩ := Classical.not_imp.mp hrepays
  rw [not_not] at hcut
  obtain ⟨c, a, hahead, ha, hstart⟩ := h.ahead
  rw [if_pos hrewound] at hstart
  have hrounds := rounds_burst h.start_lt p
  generalize s.burst p = s' at hrounds
  cases hrounds with
  | idle nextTxUs nowUs hnot => exact absurd hcut hnot
  | cut nextTxUs nowUs hcut =>
    -- the first place is one ahead already, and the round takes it two ahead of the last
    show ¬ Even s.served.dsts.length (s.served.frames ++ stretch _ s.burstStart p.accepted)
    rw [hstart.2]
    exact hahead.not_even hstart.1 ha hcut.2.1 hcut.2.2
  | whole nextTxUs nowUs hnot => exact absurd hcut hnot

/-- The flood at once is even after every pass exactly as long as no round is cut short once one that
began behind the first address has gone out whole. -/
theorem even_iff (dsts : List Ipv4Addr) (h : dsts ≠ []) (frequencyHz : Option UInt16) (nowUs : ℕ)
    (ps : List BurstPass) :
    Always pass (fun s => s.served.All Even) (start dsts h frequencyHz nowUs) ps ↔
      Along pass Repays (start dsts h frequencyHz nowUs) ps := by
  apply always_iff_along (I := Fair) (H := fun _ _ => True) (fun _ _ _ => trivial)
  · exact fair_start dsts h frequencyHz nowUs
  · exact ⟨(ahead_nil _).even, by simp [start, Served.start]⟩
  · intro s p hfair hall _
    obtain ⟨hdsts, hearlier⟩ := (rounds_burst hfair.start_lt p).served
    rw [pass, all_report, Served.All, hearlier, hdsts]
    constructor
    · intro heven
      by_contra hrepays
      exact hfair.not_even hrepays heven.1
    · intro hrepays
      exact ⟨(hfair.burst hrepays).2, hall.2⟩
  · intro s p hfair _ _ hrepays
    exact (hfair.burst hrepays).1.report p.updated

/-- A round cut short after one datagram and a whole one, with three stations. -/
theorem even_cut_short_once :
    Always pass (fun s => s.served.All Even)
      (start [⟨192, 168, 2, 2⟩, ⟨192, 168, 2, 3⟩, ⟨192, 168, 2, 4⟩] (by decide) (some 100) 0)
      [⟨10000, 1, 10000, some []⟩, ⟨20000, 3, 20000, some []⟩] :=
  (even_iff _ (by decide) _ _ _).mpr (by decide +kernel)

/-- A round cut short after one datagram, a whole one, and another cut short, with three stations. -/
theorem not_even_rewound :
    ¬ Always pass (fun s => s.served.All Even)
      (start [⟨192, 168, 2, 2⟩, ⟨192, 168, 2, 3⟩, ⟨192, 168, 2, 4⟩] (by decide) (some 100) 0)
      [⟨10000, 1, 10000, some []⟩, ⟨20000, 3, 20000, some []⟩, ⟨30000, 1, 30000, some []⟩] :=
  fun h => absurd h.last (by decide +kernel)

end IcmpFloodBurst

end EspCsi.Wifi
