import EspCsi.Stats.Table

/-!
# Resyncing after an output-off period

A request to resync marks every entry, and the next frame of a transmitter takes its entry's mark.
Whether the gap across the request is left uncounted turns on that frame: one that leaves the
entry's number as it was takes the mark for nothing.
-/

namespace EspCsi

open Wire Transition

/-- The counters, whether a request to resync has come since the frame whose number a transmitter's
entry keeps, whether the mark it left was taken by a frame that kept that number, and whether any gap
was counted across a request. -/
structure Toggled where
  stats : Stats
  stale : Mac → Bool
  wasted : Mac → Bool
  spanned : Bool

namespace Toggled

def start (s : Stats) : Toggled where
  stats := s.reset
  stale _ := false
  wasted _ := false
  spanned := false

/-- A frame that leaves its number in the entry: the transmitter's first, or a numbered one that is
no retry. -/
def Renumbers (s : Stats) (mac : Mac) (seq : Option UInt16) (retry : Option Bool) : Prop :=
  mac ∉ s.perTx.map TxStats.mac ∨ seq.isSome = true ∧ retry ≠ some true

instance (s : Stats) (mac : Mac) (seq : Option UInt16) (retry : Option Bool) :
    Decidable (Renumbers s mac seq retry) :=
  inferInstanceAs (Decidable (_ ∨ _))

/-- The transmitter's entry takes the next frame for its first: its count stands at 0. -/
def AtZero (s : Stats) (mac : Mac) : Prop := ∀ e ∈ s.perTx, e.mac = mac → e.frames = 0

instance (s : Stats) (mac : Mac) : Decidable (AtZero s mac) :=
  inferInstanceAs (Decidable (∀ e ∈ s.perTx, _))

def step (t : Toggled) (c : Stats.Call) : Toggled :=
  match c with
  | .recordTxFrame mac seq retry =>
    { stats := t.stats.call c
      stale := Function.update t.stale mac
        (if Renumbers t.stats mac seq retry then false else t.stale mac)
      -- a frame that leaves no number uses the mark up
      wasted := Function.update t.wasted mac
        (if Renumbers t.stats mac seq retry then false
          else t.wasted mac || (t.stale mac && !decide (AtZero t.stats mac)))
      spanned := t.spanned || (t.stale mac && t.stats.gapShown mac seq retry != 0) }
  | .resetSeqTracker =>
    { t with stats := t.stats.call c, stale := fun _ => true, wasted := fun _ => false }
  | _ => { t with stats := t.stats.call c }

/-- A numbered frame that finds its mark wasted shows no gap. -/
def ShowsNoGap (t : Toggled) : Stats.Call → Prop
  | .recordTxFrame mac seq retry =>
    t.stale mac = true → t.wasted mac = true → retry ≠ some true →
      ∀ e ∈ t.stats.perTx, e.mac = mac → e.frames ≠ 0 →
        ∀ n ∈ seq, TxStats.gapBefore n e.lastSeq = 0
  | _ => True

/-- The entries of the transmitters, and which of them are still marked. -/
structure Marked (t : Toggled) : Prop where
  distinct : (t.stats.perTx.map TxStats.mac).Nodup
  marked : ∀ e ∈ t.stats.marked, t.stale e.mac = true →
    (e.resync = true ↔ t.wasted e.mac = false)

theorem marked_start (s : Stats) : (start s).Marked where
  distinct := List.nodup_nil
  marked := by simp [start, Stats.marked, Stats.reset, Stats.boot]

variable {t : Toggled}

theorem Marked.gapShown_iff (h : t.Marked) (mac : Mac) (seq : Option UInt16) (retry : Option Bool)
    (hstale : t.stale mac = true) :
    t.stats.gapShown mac seq retry = 0 ↔ t.ShowsNoGap (.recordTxFrame mac seq retry) := by
  obtain ⟨before, e, after, hslot, hshown, -⟩ := t.stats.exists_recordTxFrame mac seq retry
  rw [hshown]
  cases seq with
  | none =>
    refine iff_of_true ?_ fun _ _ _ x _ _ _ n hn => absurd hn (by simp)
    exact e.record_unnumbered retry t.stats.perTxClock
  | some n =>
    rw [TxStats.record_gap, ite_eq_right_iff]
    rcases Stats.slot_entry h.distinct hslot with ⟨x, hx, rfl, hin, ⟨resync, rfl⟩, honly⟩ | ⟨rfl, hnew⟩
    · have hmark : resync = true ↔ t.wasted x.mac = false := h.marked _ hin hstale
      have hwasted : resync = false ↔ t.wasted x.mac = true := by
        rw [← Bool.not_eq_true, hmark, Bool.not_eq_false]
      constructor
      · intro hgap _ hwaste hretry y hy hmac hframes n' hn
        obtain rfl := honly y hy hmac
        obtain rfl := Option.some_inj.mp hn
        exact hgap ⟨hretry, hframes, hwasted.mpr hwaste⟩
      · rintro hshows ⟨hretry, hframes, hresync⟩
        exact hshows hstale (hwasted.mp hresync) hretry x hx rfl hframes n rfl
    · refine iff_of_true (fun hcompares => absurd rfl hcompares.2.1) ?_
      exact fun _ _ _ x hx hmac => absurd (hmac ▸ List.mem_map_of_mem hx) hnew

theorem Marked.frame (h : t.Marked) (mac : Mac) (seq : Option UInt16) (retry : Option Bool) :
    (t.step (.recordTxFrame mac seq retry)).Marked := by
  obtain ⟨before, e, after, hslot, -, heq⟩ := t.stats.exists_recordTxFrame mac seq retry
  have hstats : (t.step (.recordTxFrame mac seq retry)).stats = _ := heq
  have hmarked : (t.step (.recordTxFrame mac seq retry)).stats.marked =
      before ++ (e.record seq retry t.stats.perTxClock).2 :: after := by
    rw [hstats]
    rfl
  constructor
  · rw [hstats]
    exact hslot.nodup (Stats.nodup_marked h.distinct) (by rw [TxStats.record_mac, hslot.mac_eq])
  · intro x hx hstale
    rw [hmarked] at hx
    rcases Stats.slot_cases h.distinct hslot hx with rfl | ⟨hother, hin⟩
    · rw [TxStats.record_mac, hslot.mac_eq] at hstale ⊢
      change Function.update t.stale mac _ mac = true at hstale
      change _ ↔ Function.update t.wasted mac _ mac = false
      rw [Function.update_self] at hstale ⊢
      by_cases hrenumber : Renumbers t.stats mac seq retry
      · simp [hrenumber] at hstale
      · rw [if_neg hrenumber] at hstale ⊢
        obtain ⟨y, hy, rfl, hin, ⟨resync, rfl⟩, honly⟩ :=
          (Stats.slot_entry h.distinct hslot).resolve_right fun hnew => hrenumber (.inl hnew.2)
        have hmark : resync = true ↔ t.wasted y.mac = false := h.marked _ hin hstale
        have hzero : AtZero t.stats y.mac ↔ y.frames = 0 :=
          ⟨fun hz => hz y hy rfl, fun hz z hz' hmac => honly z hz' hmac ▸ hz⟩
        rw [TxStats.record_resync, hstale]
        -- the mark is taken unless the entry's count stands at zero
        by_cases hframes : y.frames = 0
        · simp [hframes, hzero, hmark]
        · simp [hframes, hzero]
    · change Function.update t.stale mac _ x.mac = true at hstale
      change _ ↔ Function.update t.wasted mac _ x.mac = false
      rw [Function.update_of_ne hother] at hstale ⊢
      exact h.marked x hin hstale

theorem Marked.step (h : t.Marked) (c : Stats.Call) : (t.step c).Marked := by
  cases c with
  | recordTxFrame mac seq retry => exact h.frame mac seq retry
  | resetSeqTracker =>
    refine ⟨h.distinct, fun e he _ => iff_of_true ?_ rfl⟩
    have hall : e ∈ t.stats.perTx.map fun e => { e with resync := true } := he
    obtain ⟨x, -, rfl⟩ := List.mem_map.mp hall
    rfl
  | oversize => exact ⟨h.distinct, h.marked⟩
  | queueFull => exact ⟨h.distinct, h.marked⟩

/-- From a reset on, no gap is counted across a request to resync exactly when each numbered frame
that finds its mark wasted shows none. -/
theorem unspanned_iff (s : Stats) (cs : List Stats.Call) :
    Always step (fun t => t.spanned = false) (start s) cs ↔ Along step ShowsNoGap (start s) cs := by
  refine always_iff_along (H := fun _ _ => True) (I := Marked) (fun _ _ _ => trivial)
    (marked_start s) rfl ?_ (fun t c hmarked _ _ _ => hmarked.step c)
  intro t c hmarked hquiet _
  cases c with
  | recordTxFrame mac seq retry =>
    change (t.spanned || (t.stale mac && t.stats.gapShown mac seq retry != 0)) = false ↔ _
    rw [hquiet, Bool.false_or]
    by_cases hstale : t.stale mac = true
    · rw [hstale, Bool.true_and, bne_eq_false_iff_eq]
      exact hmarked.gapShown_iff mac seq retry hstale
    · have hfresh : t.stale mac = false := by simpa using hstale
      rw [hfresh, Bool.false_and]
      exact iff_of_true rfl fun hstale' => absurd hstale' hstale
  | _ => exact iff_of_true hquiet trivial

/-- A retry comes first after the request, and nine numbers pass while output is off. -/
theorem spanned_by_retry :
    ¬ Always step (fun t => t.spanned = false) (start .boot)
      [.recordTxFrame .zero (some 1) (some false), .resetSeqTracker,
        .recordTxFrame .zero (some 10) (some true), .recordTxFrame .zero (some 11) (some false)] := by
  intro h
  have hlast := h.last
  revert hlast
  decide +kernel

end Toggled

end EspCsi
