import EspCsi.Lib.Missing
import EspCsi.Stats.Table

/-!
# Gaps in one transmitter's numbers

When the gaps counted for a transmitter are the numbers of which no copy was recorded. The entry
keeps the number of the last frame that is no retry, so that a number recorded by a retry alone is
passed over by the next original.
-/

namespace EspCsi

open Wire Transition Missing

/-- The counters, and what was recorded of one transmitter: the numbers, counted from its first
transmission on without wrapping, the least and the greatest of them, the one its entry keeps, and
how many frames. -/
structure Followed where
  stats : Stats
  recorded : Finset ℕ
  first : ℕ
  last : ℕ
  kept : ℕ
  frames : ℕ

/-- A frame of the transmitter followed, or of another. -/
inductive Received where
  | own (number : ℕ) (retry : Bool)
  | other (mac : Mac) (seq : Option UInt16) (retry : Option Bool)

namespace Followed

def start (s : Stats) : Followed where
  stats := s.reset
  recorded := ∅
  first := 0
  last := 0
  kept := 0
  frames := 0

/-- The sequence number a transmission numbered `n` carries. -/
def seqOf (n : ℕ) : UInt16 := UInt16.ofNat (n % 4096)

def step (m : Mac) (f : Followed) : Received → Followed
  | .own n retry =>
    { stats := f.stats.recordTxFrame m (some (seqOf n)) (some retry)
      recorded := insert n f.recorded
      first := if f.frames = 0 then n else min f.first n
      last := if f.frames = 0 then n else max f.last n
      kept := if f.frames = 0 ∨ retry = false then n else f.kept
      frames := f.frames + 1 }
  | .other mac seq retry => { f with stats := f.stats.recordTxFrame mac seq retry }

/-- The frame evicts no entry. -/
def EvictsNone (f : Followed) (mac : Mac) : Prop :=
  mac ∈ f.stats.perTx.map TxStats.mac ∨ f.stats.perTx.length < MAX_TRACKED_TX

/-- Frames come in the order of transmission: an original is numbered above all before it, and a
retry follows its original, whether that was recorded or not. Fewer than 499 numbers are missing in a
row. -/
def InOrder (m : Mac) (f : Followed) : Received → Prop
  | .own n retry =>
    f.EvictsNone m ∧ (f.frames ≠ 0 → n ≤ f.last + 499 ∧ (retry = false → f.last < n))
  | .other mac _ _ => f.EvictsNone mac ∧ mac ≠ m

/-- The gaps counted for the transmitter are the numbers of which no copy was recorded. -/
def Exact (m : Mac) (f : Followed) : Prop :=
  ∀ e ∈ f.stats.perTx, e.mac = m → e.seqGaps.toNat = missing f.recorded

/-- An original follows no number recorded by retries alone, and a retry no lost number: unless the
entry restarts, after a whole number of rounds of its counters or a run of 499 or more. -/
def Follows (f : Followed) : Received → Prop
  | .own n retry =>
    f.frames ≠ 0 →
      if retry then n ∈ f.recorded ∨ n = f.last + 1 ∨ n + 1 = f.first
      else
        missing f.recorded + (n - f.last - 1) < 2 ^ 32 ∧
          if f.frames % 2 ^ 32 = 0 then n = f.last + 1
          else (f.last - f.kept) % 4096 = 0 ∨
            n = f.last + 1 ∧ 499 ≤ (f.last - f.kept) % 4096
  | .other .. => True

instance (f : Followed) (mac : Mac) : Decidable (f.EvictsNone mac) :=
  inferInstanceAs (Decidable (_ ∨ _))

instance (m : Mac) (f : Followed) (r : Received) : Decidable (f.InOrder m r) :=
  match r with
  | .own .. => inferInstanceAs (Decidable (_ ∧ _))
  | .other .. => inferInstanceAs (Decidable (_ ∧ _))

instance (m : Mac) (f : Followed) : Decidable (f.Exact m) :=
  inferInstanceAs (Decidable (∀ e ∈ f.stats.perTx, _))

instance (f : Followed) (r : Received) : Decidable (f.Follows r) :=
  match r with
  | .own n retry =>
    inferInstanceAs (Decidable (f.frames ≠ 0 →
      if retry then n ∈ f.recorded ∨ n = f.last + 1 ∨ n + 1 = f.first else _ ∧ ite _ _ _))
  | .other .. => isTrue trivial

/-- The transmitter's entry keeps up with what was recorded. -/
structure Tracks (m : Mac) (f : Followed) : Prop where
  distinct : (f.stats.perTx.map TxStats.mac).Nodup
  unmarked : f.stats.marked = f.stats.perTx
  new : m ∉ f.stats.perTx.map TxStats.mac ↔ f.frames = 0
  empty : f.frames = 0 → f.recorded = ∅
  spans : f.frames ≠ 0 → Spans f.recorded f.first f.last
  kept : f.kept ≤ f.last
  entry : ∀ e ∈ f.stats.perTx, e.mac = m →
    e.frames.toNat = f.frames % 2 ^ 32 ∧ e.lastSeq.toNat = f.kept % 4096 ∧ e.resync = false

theorem seqOf_toNat (n : ℕ) : (seqOf n).toNat = n % 4096 := by
  rw [seqOf, UInt16.toNat_ofNat']
  omega

theorem tracks_start (m : Mac) (s : Stats) : (start s).Tracks m where
  distinct := List.nodup_nil
  unmarked := by simp [start, Stats.marked, Stats.reset, Stats.boot]
  new := by simp [start, Stats.reset, Stats.boot]
  empty _ := rfl
  spans h := absurd rfl h
  kept := le_rfl
  entry := by simp [start, Stats.reset, Stats.boot]

variable {m : Mac} {f : Followed}

/-- The gap an original shows, with the last number recorded after the one kept, is the numbers
missing ahead of it exactly when what lies between the two goes unnoticed. -/
theorem gap_iff {n : ℕ} {last : UInt16} (hlast : last.toNat = f.kept % 4096) (hkept : f.kept ≤ f.last)
    (hnext : f.last < n) (hnear : n ≤ f.last + 499) :
    (TxStats.gapBefore (seqOf n) last).toNat = n - f.last - 1 ↔
      (f.last - f.kept) % 4096 = 0 ∨ n = f.last + 1 ∧ 499 ≤ (f.last - f.kept) % 4096 := by
  have hdiff : (last.toNat + (n - f.kept)) % 4096 = (seqOf n).toNat % 4096 := by
    rw [hlast, seqOf_toNat]
    omega
  rw [TxStats.gapBefore_toNat hdiff]
  split_ifs <;> omega

variable {before after : List TxStats} {e : TxStats} {n : ℕ}

theorem Tracks.slot (h : f.Tracks m)
    (hslot : TxSlot f.stats.marked m (some (seqOf n)) before e after) :
    (f.frames = 0 ∧ e = .fresh m (some (seqOf n))) ∨
      (f.frames ≠ 0 ∧ e ∈ f.stats.perTx ∧ e.mac = m) := by
  rcases Stats.slot_entry h.distinct hslot with ⟨x, hx, hmac, hin, ⟨resync, rfl⟩, -⟩ | ⟨rfl, hnew⟩
  · have hframes : f.frames ≠ 0 := fun hzero => h.new.mpr hzero (hmac ▸ List.mem_map_of_mem hx)
    exact .inr ⟨hframes, h.unmarked ▸ hin, hmac⟩
  · exact .inl ⟨h.new.mp hnew, rfl⟩

theorem Tracks.own (h : f.Tracks m) (n : ℕ) (retry : Bool) : (f.step m (.own n retry)).Tracks m := by
  obtain ⟨before, e, after, hslot, -, heq⟩ :=
    f.stats.exists_recordTxFrame m (some (seqOf n)) (some retry)
  have hstats : (f.step m (.own n retry)).stats = _ := heq
  have hmac : (e.record (some (seqOf n)) (some retry) f.stats.perTxClock).2.mac = m := by
    rw [TxStats.record_mac, hslot.mac_eq]
  constructor
  case distinct =>
    rw [hstats]
    exact hslot.nodup (Stats.nodup_marked h.distinct) hmac
  case unmarked =>
    rw [hstats]
    rfl
  case new =>
    rw [hstats]
    refine iff_of_false (fun hnot => hnot ?_) (Nat.succ_ne_zero f.frames)
    simp [hmac]
  case empty => exact fun hzero => absurd hzero (Nat.succ_ne_zero f.frames)
  case spans =>
    intro _
    change Spans (insert n f.recorded) (if f.frames = 0 then n else _) (if f.frames = 0 then n else _)
    by_cases hzero : f.frames = 0
    · rw [if_pos hzero, if_pos hzero, h.empty hzero]
      exact spans_singleton n
    · rw [if_neg hzero, if_neg hzero]
      exact (h.spans hzero).insert n
  case kept =>
    change (if f.frames = 0 ∨ retry = false then n else f.kept) ≤
      if f.frames = 0 then n else max f.last n
    have hkept := h.kept
    split_ifs <;> omega
  case entry =>
    intro x hx hxmac
    rw [hstats] at hx
    rcases Stats.slot_cases h.distinct hslot hx with rfl | ⟨hother, -⟩
    · have hone : (1 : UInt32).toNat = 1 := rfl
      change _ = (f.frames + 1) % 2 ^ 32 ∧
        _ = (if f.frames = 0 ∨ retry = false then n else f.kept) % 4096 ∧ _
      rw [TxStats.record_frames, TxStats.record_lastSeq, TxStats.record_resync, UInt32.toNat_add, hone]
      -- the first frame makes the entry with its own number; later a retry leaves the number
      rcases h.slot hslot with ⟨hzero, rfl⟩ | ⟨hsome, hin, hemac⟩
      · have hfresh : (TxStats.fresh m (some (seqOf n))).lastSeq = seqOf n := rfl
        rw [hfresh, ite_self, seqOf_toNat, hzero]
        refine ⟨rfl, ?_, rfl⟩
        simp
      · obtain ⟨hframes, hlast, hresync⟩ := h.entry e hin hemac
        rw [hframes, hresync, ite_self]
        refine ⟨by omega, ?_, rfl⟩
        cases retry with
        | true => simpa [hsome] using hlast
        | false => simp [seqOf_toNat]
    · exact absurd hxmac hother

theorem Tracks.other (h : f.Tracks m) {mac : Mac} {seq : Option UInt16} {retry : Option Bool}
    (horder : f.InOrder m (.other mac seq retry)) :
    (f.step m (.other mac seq retry)).Tracks m ∧
      ∀ x, x.mac = m → (x ∈ (f.step m (.other mac seq retry)).stats.perTx ↔ x ∈ f.stats.perTx) := by
  obtain ⟨hnone, hne⟩ := horder
  obtain ⟨before, e, after, hslot, -, heq⟩ := f.stats.exists_recordTxFrame mac seq retry
  have hstats : (f.step m (.other mac seq retry)).stats = _ := heq
  have hmac : (e.record seq retry f.stats.perTxClock).2.mac = mac := by
    rw [TxStats.record_mac, hslot.mac_eq]
  have hsame (x : TxStats) (hx : x.mac = m) :
      x ∈ (f.step m (.other mac seq retry)).stats.perTx ↔ x ∈ f.stats.perTx := by
    rw [hstats, ← h.unmarked]
    have hother : x ≠ (e.record seq retry f.stats.perTxClock).2 := by
      rintro rfl
      exact hne (hmac ▸ hx)
    cases hslot with
    | tracked he htable =>
      have hother' : x ≠ e := by
        rintro rfl
        exact hne (he ▸ hx)
      simp [htable, hother, hother']
    | added hnew hroom => simp [hother]
    | evicted hnew hfull =>
      rw [h.unmarked] at hnew hfull
      -- no entry is evicted, by hypothesis
      exact absurd hnone (by simp [EvictsNone, hnew, hfull])
  refine ⟨?_, hsame⟩
  constructor
  case distinct =>
    rw [hstats]
    exact hslot.nodup (Stats.nodup_marked h.distinct) hmac
  case unmarked =>
    rw [hstats]
    rfl
  case new =>
    have hmem : m ∈ (f.step m (.other mac seq retry)).stats.perTx.map TxStats.mac ↔
        m ∈ f.stats.perTx.map TxStats.mac := by
      rw [List.mem_map, List.mem_map]
      exact exists_congr fun x => and_congr_left (hsame x)
    exact (not_congr hmem).trans h.new
  case empty => exact h.empty
  case spans => exact h.spans
  case kept => exact h.kept
  case entry =>
    intro x hx hxmac
    exact h.entry x ((hsame x hxmac).mp hx) hxmac

/-- An original adds the numbers ahead of it to those missing exactly when its gap is seen from the
number before. -/
theorem original_iff {gaps gap : UInt32} {last : UInt16} (h : f.Tracks m)
    (hgaps : gaps.toNat = missing f.recorded) (hlast : last.toNat = f.kept % 4096)
    (hnext : f.last < n) (hnear : n ≤ f.last + 499)
    (hgap : gap = if f.frames % 2 ^ 32 = 0 then 0 else TxStats.gapBefore (seqOf n) last) :
    (gaps + gap).toNat = missing f.recorded + (n - f.last - 1) ↔
      missing f.recorded + (n - f.last - 1) < 2 ^ 32 ∧
        if f.frames % 2 ^ 32 = 0 then n = f.last + 1
        else (f.last - f.kept) % 4096 = 0 ∨ n = f.last + 1 ∧ 499 ≤ (f.last - f.kept) % 4096 := by
  have hwidth := gaps.toNat_lt
  have hwidth' := gap.toNat_lt
  have hseen : gap.toNat = n - f.last - 1 ↔
      if f.frames % 2 ^ 32 = 0 then n = f.last + 1
      else (f.last - f.kept) % 4096 = 0 ∨ n = f.last + 1 ∧ 499 ≤ (f.last - f.kept) % 4096 := by
    rw [hgap]
    split_ifs
    · simp
      omega
    · exact gap_iff hlast h.kept hnext hnear
  rw [← hseen, UInt32.toNat_add, hgaps]
  omega

theorem exact_own_iff (h : f.Tracks m) (hexact : f.Exact m) {retry : Bool}
    (horder : f.InOrder m (.own n retry)) :
    (f.step m (.own n retry)).Exact m ↔ f.Follows (.own n retry) := by
  obtain ⟨before, e, after, hslot, hshown, heq⟩ :=
    f.stats.exists_recordTxFrame m (some (seqOf n)) (some retry)
  have hstats : (f.step m (.own n retry)).stats = _ := heq
  have hsame : (f.step m (.own n retry)).Exact m ↔
      (e.seqGaps + (e.record (some (seqOf n)) (some retry) f.stats.perTxClock).1).toNat =
        missing (insert n f.recorded) := by
    rw [← TxStats.record_seqGaps, Exact, hstats]
    constructor
    · intro hall
      exact hall _ (by simp) (by rw [TxStats.record_mac, hslot.mac_eq])
    · intro hentry x hx hxmac
      rcases Stats.slot_cases h.distinct hslot hx with rfl | ⟨hother, -⟩
      · exact hentry
      · exact absurd hxmac hother
  rw [hsame, TxStats.record_gap]
  rcases h.slot hslot with ⟨hzero, rfl⟩ | ⟨hsome, hin, hemac⟩
  · have hfirst : ¬ (TxStats.fresh m (some (seqOf n))).Compares (some retry) :=
      fun hcompares => hcompares.2.1 rfl
    rw [if_neg hfirst, h.empty hzero]
    exact iff_of_true (missing_singleton n).symm fun hsome => absurd hzero hsome
  · obtain ⟨hframes, hlast, hresync⟩ := h.entry e hin hemac
    have hgaps := hexact e hin hemac
    obtain ⟨hnear, hnext⟩ := horder.2 hsome
    have hspans := h.spans hsome
    have hinsert := hspans.missing_insert n
    cases retry with
    -- a retry shows no gap: it must not add to the missing ones, nor take from them
    | true =>
      have hskipped : ¬ e.Compares (some true) := fun hcompares => hcompares.1 rfl
      have hfollows : f.Follows (.own n true) ↔
          n ∈ f.recorded ∨ n = f.last + 1 ∨ n + 1 = f.first := by
        simp [Follows, hsome]
      rw [if_neg hskipped, UInt32.add_zero, hgaps, hfollows]
      by_cases hmem : n ∈ f.recorded
      · have hbounds := hspans.le n hmem
        rw [if_pos hmem] at hinsert
        exact iff_of_true (by omega) (.inl hmem)
      · have hne : n ≠ f.last := fun hlast' => hmem (hlast' ▸ hspans.last_mem)
        have hne' : n ≠ f.first := fun hfirst => hmem (hfirst ▸ hspans.first_mem)
        have hle := (hspans.le f.first hspans.first_mem).2
        rw [if_neg hmem] at hinsert
        split_ifs at hinsert <;> simp only [hmem, false_or] <;> omega
    -- an original shows the numbers ahead of it, unless its entry restarts
    | false =>
      have hlater := hnext rfl
      have hmem : n ∉ f.recorded := by
        intro hmem
        have hbounds := hspans.le n hmem
        omega
      have hle := (hspans.le f.first hspans.first_mem).2
      have hadds : missing (insert n f.recorded) = missing f.recorded + (n - f.last - 1) := by
        rw [if_neg hmem, if_neg (by omega)] at hinsert
        omega
      have hcompares : e.Compares (some false) ↔ ¬ f.frames % 2 ^ 32 = 0 := by
        rw [← hframes, TxStats.Compares, hresync]
        simp [← UInt32.toNat_inj]
      have hgap : (if e.Compares (some false) then TxStats.gapBefore (seqOf n) e.lastSeq else 0) =
          if f.frames % 2 ^ 32 = 0 then 0 else TxStats.gapBefore (seqOf n) e.lastSeq := by
        by_cases hwraps : f.frames % 2 ^ 32 = 0
        · rw [if_neg (mt hcompares.mp (not_not.mpr hwraps)), if_pos hwraps]
        · rw [if_pos (hcompares.mpr hwraps), if_neg hwraps]
      rw [hadds, original_iff h hgaps hlast hlater hnear hgap]
      simp [Follows, hsome]

/-- Every state in which the frames so far came in order is exact, exactly when each followed on. -/
theorem exact_iff_follows (m : Mac) (s : Stats) (rs : List Received)
    (horder : Along (step m) (InOrder m) (start s) rs) :
    Always (step m) (Exact m) (start s) rs ↔ Along (step m) Follows (start s) rs := by
  refine always_iff_along horder (tracks_start m s) ?_ ?_ ?_
  · simp [Exact, start, Stats.reset, Stats.boot]
  · intro f r htracks hexact hin
    cases r with
    | own n retry => exact exact_own_iff htracks hexact hin
    | other mac seq retry =>
      refine iff_of_true ?_ trivial
      obtain ⟨-, hsame⟩ := htracks.other hin
      intro x hx hxmac
      exact hexact x ((hsame x hxmac).mp hx) hxmac
  · intro f r htracks _ hin _
    cases r with
    | own n retry => exact htracks.own n retry
    | other mac seq retry => exact (htracks.other hin).1

theorem exact_iff_follows_lossy :
    Always (step .zero) (Exact .zero) (start .boot) [.own 7 false, .own 7 true, .own 10 false] :=
  (exact_iff_follows .zero .boot [.own 7 false, .own 7 true, .own 10 false]
    (by decide +kernel)).mpr (by decide +kernel)

/-- Of number 2 only the retry is recorded, and 3 is taken to show a gap. -/
theorem not_exact :
    Along (step .zero) (InOrder .zero) (start .boot) [.own 1 false, .own 2 true, .own 3 false] ∧
      ¬ Always (step .zero) (Exact .zero) (start .boot)
        [.own 1 false, .own 2 true, .own 3 false] := by
  refine ⟨by decide +kernel, fun h => ?_⟩
  have hlast := h.last
  revert hlast
  decide +kernel

end Followed

end EspCsi
