import Mathlib.Data.List.MinMax
import EspCsi.Lib.Recency
import EspCsi.Lib.Transition
import EspCsi.Stats

/-!
# The table of transmitters

What the per-transmitter table holds after any calls: an entry for each of the transmitters heard
most recently, with what was heard from it since it last came in. Entries are compared by a clock of
32 bits that no reset restarts.
-/

namespace EspCsi

open Wire Transition Recency

/-! ## The slot of a transmitter -/

theorem mem_slot {before after : List TxStats} {e x : TxStats} (h : x ∈ before ++ e :: after) :
    x = e ∨ x ∈ before ++ after := by
  simpa [or_left_comm] using h

/-- An entry of the smallest `lastUsed`, ahead of any other such. -/
theorem lruIndex_spec {t : List TxStats} (h : t ≠ []) :
    ∃ hlt : lruIndex t < t.length, ∀ e ∈ t, t[lruIndex t].lastUsed ≤ e.lastUsed := by
  have hleast : ∃ e ∈ t, ∀ e' ∈ t, e.lastUsed ≤ e'.lastUsed := by
    obtain ⟨e, he⟩ := Option.ne_none_iff_exists'.mp
      (mt (List.argmin_eq_none (f := fun e : TxStats => e.lastUsed.toNat)).mp h)
    refine ⟨e, List.argmin_mem he, fun e' he' => UInt32.le_iff_toNat_le.mpr ?_⟩
    exact List.le_of_mem_argmin (f := fun e : TxStats => e.lastUsed.toNat) he' he
  have hlt : lruIndex t < t.length := by
    obtain ⟨e, he, hle⟩ := hleast
    exact List.findIdx_lt_length_of_exists ⟨e, he, by simpa using hle⟩
  refine ⟨hlt, ?_⟩
  have hfound := List.findIdx_getElem (w := hlt)
  rw [List.all_eq_true] at hfound
  exact fun e he => of_decide_eq_true (hfound e he)

/-- How a transmitter's slot comes about: it has an entry, a new one is put behind the others, or the
least recently used entry makes room for it. -/
inductive TxSlot (t : List TxStats) (mac : Mac) (seq : Option UInt16) :
    List TxStats → TxStats → List TxStats → Prop
  | tracked {before e after} (hmac : e.mac = mac) (h : t = before ++ e :: after) :
      TxSlot t mac seq before e after
  | added (hnew : mac ∉ t.map TxStats.mac) (hroom : t.length < MAX_TRACKED_TX) :
      TxSlot t mac seq t (.fresh mac seq) []
  | evicted {before old after} (hnew : mac ∉ t.map TxStats.mac)
      (hfull : MAX_TRACKED_TX ≤ t.length) (h : t = before ++ old :: after)
      (hlru : ∀ e ∈ t, old.lastUsed ≤ e.lastUsed) : TxSlot t mac seq before (.fresh mac seq) after

theorem exists_slot (t : List TxStats) (mac : Mac) (seq : Option UInt16) :
    ∃ before e after, slotFor t mac seq = (before.length, before ++ e :: after) ∧
      TxSlot t mac seq before e after := by
  cases hfind : t.findIdx? fun e => e.mac = mac with
  | some i =>
    obtain ⟨hi, hmac, -⟩ := List.findIdx?_eq_some_iff_getElem.mp hfind
    have hsplit : t = t.take i ++ t[i] :: t.drop (i + 1) := by simp
    have hlen : (t.take i).length = i := by
      rw [List.length_take]
      omega
    refine ⟨t.take i, t[i], t.drop (i + 1), ?_, .tracked (by simpa using hmac) hsplit⟩
    rw [slotFor, hfind, hlen, ← hsplit]
  | none =>
    have hnone : mac ∉ t.map TxStats.mac := by
      intro hmem
      obtain ⟨e, he, hmac⟩ := List.mem_map.mp hmem
      exact absurd hmac (by simpa using List.findIdx?_eq_none_iff.mp hfind e he)
    by_cases hroom : t.length < MAX_TRACKED_TX
    · refine ⟨t, .fresh mac seq, [], ?_, .added hnone hroom⟩
      rw [slotFor, hfind]
      exact if_pos hroom
    · have hne : t ≠ [] := by
        rintro rfl
        simp [MAX_TRACKED_TX] at hroom
      obtain ⟨hlt, hle⟩ := lruIndex_spec hne
      have hsplit : t = t.take (lruIndex t) ++ t[lruIndex t] :: t.drop (lruIndex t + 1) := by simp
      have hlen : (t.take (lruIndex t)).length = lruIndex t := by
        rw [List.length_take]
        omega
      refine ⟨t.take (lruIndex t), .fresh mac seq, t.drop (lruIndex t + 1), ?_,
        .evicted hnone (by omega) hsplit hle⟩
      rw [slotFor, hfind, hlen]
      refine (if_neg hroom).trans ?_
      rw [List.set_eq_take_append_cons_drop, if_pos hlt]

namespace TxSlot

variable {t before after : List TxStats} {e : TxStats} {mac : Mac} {seq : Option UInt16}

theorem mac_eq (h : TxSlot t mac seq before e after) : e.mac = mac := by
  cases h with
  | tracked hmac => exact hmac
  | added | evicted => rfl

theorem others_sublist (h : TxSlot t mac seq before e after) : (before ++ after).Sublist t := by
  cases h with
  | tracked _ h | evicted _ _ h =>
    rw [h]
    exact (List.Sublist.refl before).append (List.sublist_cons_self _ after)
  | added => rw [List.append_nil]

theorem mem_others (h : TxSlot t mac seq before e after) {x : TxStats} (hx : x ∈ before ++ after) :
    x ∈ t :=
  h.others_sublist.subset hx

theorem not_mem_others (h : TxSlot t mac seq before e after) (hnodup : (t.map TxStats.mac).Nodup) :
    mac ∉ (before ++ after).map TxStats.mac := by
  have hothers := h.others_sublist
  cases h with
  | tracked hmac h =>
    rw [h, List.map_append, List.map_cons, List.nodup_middle, ← List.map_append, hmac] at hnodup
    exact (List.nodup_cons.mp hnodup).1
  | added hnew => rwa [List.append_nil]
  | evicted hnew =>
    intro hmem
    exact hnew ((hothers.map TxStats.mac).subset hmem)

theorem nodup (h : TxSlot t mac seq before e after) (hnodup : (t.map TxStats.mac).Nodup) {e' : TxStats}
    (hmac : e'.mac = mac) : ((before ++ e' :: after).map TxStats.mac).Nodup := by
  rw [List.map_append, List.map_cons, List.nodup_middle, ← List.map_append, hmac]
  exact List.nodup_cons.mpr ⟨h.not_mem_others hnodup, hnodup.sublist (h.others_sublist.map _)⟩

end TxSlot

namespace Stats

/-- The gap that a frame shows in its transmitter's entry. -/
def gapShown (s : Stats) (mac : Mac) (seq : Option UInt16) (retry : Option Bool) : UInt32 :=
  let slot := slotFor s.marked mac seq
  ((slot.2.getD slot.1 (.fresh mac seq)).record seq retry s.perTxClock).1

/-- The entry a frame is folded into, and the other entries around it. -/
theorem exists_recordTxFrame (s : Stats) (mac : Mac) (seq : Option UInt16) (retry : Option Bool) :
    ∃ before e after, TxSlot s.marked mac seq before e after ∧
      s.gapShown mac seq retry = (e.record seq retry s.perTxClock).1 ∧
      s.recordTxFrame mac seq retry =
        { s with
          perTxClock := s.perTxClock + 1
          resetSeqTracker := false
          perTx := before ++ (e.record seq retry s.perTxClock).2 :: after
          rxDropCount := s.rxDropCount + s.gapShown mac seq retry
          rxSeqGap := s.rxSeqGap + s.gapShown mac seq retry } := by
  obtain ⟨before, e, after, hslot, hcases⟩ := exists_slot s.marked mac seq
  have hentry : (before ++ e :: after).getD before.length (.fresh mac seq) = e := by simp
  have hshown : s.gapShown mac seq retry = (e.record seq retry s.perTxClock).1 := by
    simp only [gapShown, hslot, hentry]
  exact ⟨before, e, after, hcases, hshown, hshown ▸ recordTxFrame_eq retry hslot⟩

theorem nodup_marked {s : Stats} (h : (s.perTx.map TxStats.mac).Nodup) :
    (s.marked.map TxStats.mac).Nodup := by
  rw [s.map_mac_marked]
  exact h

/-- What the table holds after a frame is the slot's new entry or another transmitter's entry, which a
pending reset has marked at most. -/
theorem slot_cases {s : Stats} {mac : Mac} {seq : Option UInt16} {before after : List TxStats}
    {e e' x : TxStats} (hdistinct : (s.perTx.map TxStats.mac).Nodup)
    (h : TxSlot s.marked mac seq before e after) (hx : x ∈ before ++ e' :: after) :
    x = e' ∨ x.mac ≠ mac ∧ x ∈ s.marked := by
  rcases mem_slot hx with rfl | hrest
  · exact .inl rfl
  · refine .inr ⟨?_, h.mem_others hrest⟩
    rintro rfl
    exact h.not_mem_others (nodup_marked hdistinct) (List.mem_map_of_mem hrest)

theorem slot_entry {s : Stats} {mac : Mac} {seq : Option UInt16} {before after : List TxStats}
    {e : TxStats} (hdistinct : (s.perTx.map TxStats.mac).Nodup)
    (h : TxSlot s.marked mac seq before e after) :
    (∃ x ∈ s.perTx, x.mac = mac ∧ e ∈ s.marked ∧ (∃ resync, e = { x with resync }) ∧
        ∀ y ∈ s.perTx, y.mac = mac → y = x) ∨
      e = .fresh mac seq ∧ mac ∉ s.perTx.map TxStats.mac := by
  cases h with
  | tracked he htable =>
    have hin : e ∈ s.marked := by simp [htable]
    obtain ⟨x, hx, resync, rfl⟩ := exists_of_mem_marked hin
    obtain rfl : x.mac = mac := he
    exact .inl ⟨x, hx, rfl, hin, ⟨resync, rfl⟩,
      fun y hy => List.inj_on_of_nodup_map hdistinct hy hx⟩
  | added hnew | evicted hnew =>
    rw [s.map_mac_marked] at hnew
    exact .inr ⟨rfl, hnew⟩

/-! ## Calls since a reset -/

/-- Calls that touch the table and the loss counters. -/
inductive Call where
  | recordTxFrame (mac : Mac) (seq : Option UInt16) (retry : Option Bool)
  | oversize
  | queueFull
  | resetSeqTracker

def call (s : Stats) : Call → Stats
  | .recordTxFrame mac seq retry => s.recordTxFrame mac seq retry
  | .oversize => s.recordLoss .oversize 1
  | .queueFull => s.recordLoss .queueFull 1
  | .resetSeqTracker => { s with resetSeqTracker := true }

def Call.isFrame : Call → Bool
  | .recordTxFrame .. => true
  | _ => false

end Stats

/-- The counters and what was heard since they were reset: the transmitters in the order in which
each was last heard and when that was, on a clock that does not wrap and that stood at `begun` at the
reset; the retry bits of each one's frames since it last came in among the most recent 16; and the
sum of the gaps shown. -/
structure History where
  stats : Stats
  order : List Mac
  stamp : Mac → ℕ
  begun : ℕ
  clock : ℕ
  frames : Mac → List (Option Bool)
  gaps : ℕ

namespace History

def tracked (h : History) : List Mac := recent MAX_TRACKED_TX h.order

def reset (s : Stats) : History where
  stats := s.reset
  order := []
  stamp _ := 0
  begun := s.perTxClock.toNat
  clock := s.perTxClock.toNat
  frames _ := []
  gaps := 0

def step (h : History) (c : Stats.Call) : History :=
  match c with
  | .recordTxFrame mac seq retry =>
    { h with
      stats := h.stats.call c
      order := touch mac h.order
      stamp := Function.update h.stamp mac h.clock
      clock := h.clock + 1
      frames := Function.update h.frames mac
        (if mac ∈ h.tracked then h.frames mac ++ [retry] else [retry])
      gaps := h.gaps + (h.stats.gapShown mac seq retry).toNat }
  | _ => { h with stats := h.stats.call c }

/-- The table holds an entry for each of the transmitters heard most recently, which counts its
frames and retries since it came in, and the counters add up. -/
structure Kept (h : History) : Prop where
  few : h.stats.perTx.length ≤ MAX_TRACKED_TX
  distinct : (h.stats.perTx.map TxStats.mac).Nodup
  recent : (h.stats.perTx.map TxStats.mac).Perm h.tracked
  frames : ∀ e ∈ h.stats.perTx, e.frames.toNat = (h.frames e.mac).length
  retries : ∀ e ∈ h.stats.perTx, e.retries.toNat = (h.frames e.mac).count (some true)
  gaps : h.stats.rxSeqGap.toNat = h.gaps
  drops : h.stats.rxDropCount.toNat =
    h.stats.rxOversize.toNat + h.stats.rxQueueFull.toNat + h.stats.rxSeqGap.toNat

/-- A full table gives up an entry in the epoch of the 32-bit clock in which its least recently heard
transmitter was last heard. -/
def EvictsInEpoch (h : History) (mac : Mac) : Prop :=
  mac ∉ h.tracked → MAX_TRACKED_TX ≤ h.order.length →
    ∀ m ∈ h.tracked.head?, h.stamp m / 2 ^ 32 = (h.clock - 1) / 2 ^ 32

/-- The step keeps the loss counters within 32 bits, and evicts no entry across a wrap of the
clock. -/
def WithinWidth (h : History) : Stats.Call → Prop
  | .recordTxFrame mac seq retry =>
    h.EvictsInEpoch mac ∧
      h.stats.rxOversize.toNat + h.stats.rxQueueFull.toNat + h.gaps +
        (h.stats.gapShown mac seq retry).toNat < 2 ^ 32
  | .oversize => (h.stats.rxOversize + 1).toNat + h.stats.rxQueueFull.toNat + h.gaps < 2 ^ 32
  | .queueFull => h.stats.rxOversize.toNat + (h.stats.rxQueueFull + 1).toNat + h.gaps < 2 ^ 32
  | .resetSeqTracker => True

instance (h : History) (mac : Mac) : Decidable (h.EvictsInEpoch mac) :=
  inferInstanceAs (Decidable (_ → _ → _))

instance (h : History) (c : Stats.Call) : Decidable (h.WithinWidth c) :=
  match c with
  | .recordTxFrame .. => inferInstanceAs (Decidable (_ ∧ _))
  | .oversize => inferInstanceAs (Decidable (_ < _))
  | .queueFull => inferInstanceAs (Decidable (_ < _))
  | .resetSeqTracker => isTrue trivial

/-- What holds in every state, whatever the table has made of it. -/
structure Clocked (h : History) : Prop where
  clock : h.stats.perTxClock.toNat = h.clock % 2 ^ 32
  begun : h.begun ≤ h.clock
  nodup : h.order.Nodup
  sorted : Stamped h.stamp h.order
  since : ∀ m ∈ h.order, h.begun ≤ h.stamp m
  past : ∀ m ∈ h.order, h.stamp m < h.clock
  latest : ∀ m ∈ h.order.getLast?, h.stamp m + 1 = h.clock
  few : ∀ m, (h.frames m).length ≤ h.clock - h.begun
  distinct : (h.stats.perTx.map TxStats.mac).Nodup
  used : ∀ e ∈ h.stats.perTx, e.lastUsed.toNat = h.stamp e.mac % 2 ^ 32
  drops : h.stats.rxDropCount =
    h.stats.rxOversize + h.stats.rxQueueFull + h.stats.rxSeqGap

variable {h : History} {mac : Mac} {seq : Option UInt16} {retry : Option Bool}

theorem clocked_reset (s : Stats) : (reset s).Clocked where
  clock := (Nat.mod_eq_of_lt s.perTxClock.toNat_lt).symm
  begun := le_rfl
  nodup := List.nodup_nil
  sorted := List.Pairwise.nil
  since := by simp [reset]
  past := by simp [reset]
  latest := by simp [reset]
  few := by simp [reset]
  distinct := List.nodup_nil
  used := by simp [reset, Stats.reset, Stats.boot]
  drops := rfl

theorem Clocked.other (hs : h.Clocked) {s : Stats} (hclock : s.perTxClock = h.stats.perTxClock)
    (htable : s.perTx = h.stats.perTx)
    (hdrops : s.rxDropCount = s.rxOversize + s.rxQueueFull + s.rxSeqGap) :
    Clocked { h with stats := s } where
  clock := by
    rw [← hs.clock, ← hclock]
  begun := hs.begun
  nodup := hs.nodup
  sorted := hs.sorted
  since := hs.since
  past := hs.past
  latest := hs.latest
  few := hs.few
  distinct := by
    rw [htable]
    exact hs.distinct
  used := by
    intro e he
    exact hs.used e (htable ▸ he)
  drops := hdrops

theorem stamp_frame (mac : Mac) (seq : Option UInt16) (retry : Option Bool) (m : Mac) :
    (h.step (.recordTxFrame mac seq retry)).stamp m = if m = mac then h.clock else h.stamp m :=
  Function.update_apply ..

theorem Clocked.frame (hs : h.Clocked) (mac : Mac) (seq : Option UInt16) (retry : Option Bool) :
    (h.step (.recordTxFrame mac seq retry)).Clocked := by
  obtain ⟨before, e, after, hslot, hshown, heq⟩ := h.stats.exists_recordTxFrame mac seq retry
  have hstats : (h.step (.recordTxFrame mac seq retry)).stats = _ := heq
  have horder (m : Mac) : m ∈ (h.step (.recordTxFrame mac seq retry)).order ↔ m ∈ h.order ∨ m = mac :=
    mem_touch
  have hclock : (h.step (.recordTxFrame mac seq retry)).clock = h.clock + 1 := rfl
  have hbegun : (h.step (.recordTxFrame mac seq retry)).begun = h.begun := rfl
  have hcount := hs.begun
  constructor
  case clock =>
    have hone : (1 : UInt32).toNat = 1 := rfl
    rw [hstats, hclock, UInt32.toNat_add, hs.clock, hone]
    omega
  case begun => exact Nat.le_succ_of_le hs.begun
  case nodup => exact nodup_touch hs.nodup
  case sorted => exact hs.sorted.touch hs.past hs.nodup
  case since =>
    intro m hm
    rw [stamp_frame, hbegun]
    split_ifs with heard
    · exact hs.begun
    · exact hs.since m (((horder m).mp hm).resolve_right heard)
  case past =>
    intro m hm
    rw [stamp_frame, hclock]
    split_ifs with heard
    · omega
    · have hold := hs.past m (((horder m).mp hm).resolve_right heard)
      omega
  case latest =>
    intro m hm
    obtain rfl : mac = m := by
      have hlast : (touch mac h.order).getLast? = some m := hm
      rw [getLast?_touch] at hlast
      exact Option.some_inj.mp hlast
    rw [stamp_frame, if_pos rfl, hclock]
  -- a transmitter that is heard again after it lost its entry starts its list anew
  case few =>
    intro m
    have hfew := hs.few m
    change (Function.update h.frames mac _ m).length ≤ h.clock + 1 - h.begun
    rw [Function.update_apply]
    split_ifs with heard hin
    · subst heard
      rw [List.length_append, List.length_singleton]
      omega
    · rw [List.length_singleton]
      omega
    · omega
  case distinct =>
    rw [hstats]
    exact hslot.nodup (Stats.nodup_marked hs.distinct) (by rw [TxStats.record_mac, hslot.mac_eq])
  case used =>
    intro x hx
    rw [hstats] at hx
    rw [stamp_frame]
    rcases Stats.slot_cases hs.distinct hslot hx with rfl | ⟨hother, hin⟩
    · rw [TxStats.record_mac, hslot.mac_eq, if_pos rfl, TxStats.record_lastUsed, hs.clock]
    · obtain ⟨x', hx', resync, rfl⟩ := Stats.exists_of_mem_marked hin
      rw [if_neg hother]
      exact hs.used x' hx'
  case drops =>
    rw [hstats]
    change _ + _ = _ + _ + (_ + _)
    rw [hs.drops, ← UInt32.add_assoc]

theorem Clocked.step (hs : h.Clocked) (c : Stats.Call) : (h.step c).Clocked := by
  cases c with
  | recordTxFrame mac seq retry => exact hs.frame mac seq retry
  | oversize =>
    refine hs.other rfl rfl ?_
    change h.stats.rxDropCount + 1 = h.stats.rxOversize + 1 + h.stats.rxQueueFull + h.stats.rxSeqGap
    rw [hs.drops]
    ac_rfl
  | queueFull =>
    refine hs.other rfl rfl ?_
    change h.stats.rxDropCount + 1 = h.stats.rxOversize + (h.stats.rxQueueFull + 1) + h.stats.rxSeqGap
    rw [hs.drops]
    ac_rfl
  | resetSeqTracker => exact hs.other rfl rfl hs.drops

/-! ## One frame -/

theorem Clocked.used_marked (hs : h.Clocked) {e : TxStats} (he : e ∈ h.stats.marked) :
    e.lastUsed.toNat = h.stamp e.mac % 2 ^ 32 := by
  obtain ⟨e', he', resync, rfl⟩ := Stats.exists_of_mem_marked he
  exact hs.used e' he'

theorem exists_entry (hrecent : (h.stats.perTx.map TxStats.mac).Perm h.tracked) {m : Mac}
    (hm : m ∈ h.tracked) : ∃ e ∈ h.stats.marked, e.mac = m := by
  rw [← h.stats.map_mac_marked] at hrecent
  exact List.mem_map.mp (hrecent.mem_iff.mpr hm)

theorem Clocked.exists_latest (hs : h.Clocked) {m : Mac} (hm : m ∈ h.tracked) :
    ∃ l ∈ h.tracked, h.stamp l + 1 = h.clock := by
  have hne : h.tracked ≠ [] := List.ne_nil_of_mem hm
  obtain ⟨older, hsplit⟩ : ∃ older, h.order = older ++ h.tracked :=
    exists_append_recent MAX_TRACKED_TX h.order
  refine ⟨h.tracked.getLast hne, List.getLast_mem hne, hs.latest _ ?_⟩
  rw [hsplit, List.getLast?_append_of_ne_nil _ hne]
  exact List.getLast?_eq_some_getLast hne

/-- The least recently heard of the transmitters held is the one that goes, exactly within its epoch
of the clock. -/
theorem Clocked.evicts_head_iff (hs : h.Clocked) {old : TxStats} (hold : old ∈ h.stats.marked)
    (hrecent : (h.stats.perTx.map TxStats.mac).Perm h.tracked)
    (hlru : ∀ e ∈ h.stats.marked, old.lastUsed ≤ e.lastUsed)
    (hwidth : h.clock < h.begun + 2 ^ 32) {m : Mac} {rest : List Mac}
    (htracked : h.tracked = m :: rest) :
    old.mac = m ↔ h.stamp m / 2 ^ 32 = (h.clock - 1) / 2 ^ 32 := by
  have hm : m ∈ h.tracked := by simp [htracked]
  have horder {x : Mac} (hx : x ∈ h.tracked) : x ∈ h.order := List.mem_of_mem_drop hx
  have hleast {x : Mac} (hx : x ∈ h.tracked) : old.lastUsed.toNat ≤ h.stamp x % 2 ^ 32 := by
    obtain ⟨e, he, rfl⟩ := exists_entry hrecent hx
    rw [← hs.used_marked he]
    exact UInt32.le_iff_toNat_le.mp (hlru e he)
  have hused := hs.used_marked hold
  have hsince := hs.since m (horder hm)
  have hpast := hs.past m (horder hm)
  constructor
  · rintro rfl
    obtain ⟨l, hl, hlatest⟩ := hs.exists_latest hm
    have hle := hleast hl
    by_contra hepoch
    -- the latest was heard after the wrap, so that its stamp is smaller
    omega
  · intro hepoch
    by_contra hne
    have hmem : old.mac ∈ h.tracked := by
      rw [← h.stats.map_mac_marked] at hrecent
      exact hrecent.mem_iff.mp (List.mem_map_of_mem hold)
    have hrest : old.mac ∈ rest := by
      rw [htracked] at hmem
      exact (List.mem_cons.mp hmem).resolve_left hne
    have hlt := hs.sorted.head_lt htracked hrest
    have hpast' := hs.past old.mac (horder hmem)
    have hle := hleast hm
    omega

theorem total_iff {total a b c : UInt32} (h : total = a + b + c) :
    total.toNat = a.toNat + b.toNat + c.toNat ↔ a.toNat + b.toNat + c.toNat < 2 ^ 32 := by
  have hlt := total.toNat_lt
  rw [h, UInt32.toNat_add, UInt32.toNat_add] at hlt ⊢
  omega

variable {before after : List TxStats} {e : TxStats}

theorem Kept.recent_marked (hk : h.Kept) : (h.stats.marked.map TxStats.mac).Perm h.tracked := by
  rw [h.stats.map_mac_marked]
  exact hk.recent

/-- The table holds the most recent transmitters after a frame exactly when it evicts none across a
wrap of the clock. -/
theorem recent_iff (hs : h.Clocked) (hk : h.Kept) (hwidth : h.clock < h.begun + 2 ^ 32)
    (hslot : TxSlot h.stats.marked mac seq before e after) {e' : TxStats} (hmac : e'.mac = mac) :
    ((before ++ e' :: after).map TxStats.mac).Perm
        (recent MAX_TRACKED_TX (touch mac h.order)) ↔ h.EvictsInEpoch mac := by
  have hrecent := hk.recent_marked
  have hlength : h.stats.marked.length = min MAX_TRACKED_TX h.order.length := by
    rw [← length_recent, ← List.length_map (f := TxStats.mac)]
    exact hrecent.length_eq
  have hmem : mac ∈ h.stats.marked.map TxStats.mac ↔ mac ∈ h.tracked := hrecent.mem_iff
  cases hslot with
  | tracked he htable =>
    have hin : mac ∈ h.tracked := hmem.mp (by simp [htable, he])
    refine iff_of_true ?_ fun hnew => absurd hin hnew
    rw [recent_touch_of_mem hs.nodup hin]
    refine List.Perm.trans ?_ (hrecent.trans (touch_perm_of_mem hin).symm)
    rw [htable, List.map_append, List.map_append, List.map_cons, List.map_cons, hmac, he]
  | added hnew hroom =>
    have hshort : h.order.length < MAX_TRACKED_TX := by omega
    refine iff_of_true ?_ fun _ hfull => absurd hshort (by omega)
    rw [recent_touch_of_room hshort (mt hmem.mpr hnew), List.map_append, List.map_cons, hmac]
    exact hrecent.append_right [mac]
  -- a full table: the entry that goes is the least recent one exactly within the epoch
  | @evicted before old after hnew hfull htable hlru =>
    have hlong : MAX_TRACKED_TX ≤ h.order.length := by omega
    have hout : mac ∉ h.tracked := mt hmem.mpr hnew
    obtain ⟨m, rest, htracked⟩ : ∃ m rest, h.tracked = m :: rest := by
      apply List.exists_cons_of_ne_nil
      intro hnil
      rw [hnil, htable] at hrecent
      simp at hrecent
    have hold : old ∈ h.stats.marked := by simp [htable]
    have hhead : h.EvictsInEpoch mac ↔ old.mac = m := by
      rw [hs.evicts_head_iff hold hk.recent hlru hwidth htracked]
      constructor
      · intro hevicts
        exact hevicts hout hlong m (by simp [htracked])
      · intro hepoch _ _ m' hm'
        rw [htracked] at hm'
        obtain rfl := Option.some_inj.mp hm'
        exact hepoch
    have hothers : (old.mac :: (before ++ after).map TxStats.mac).Perm (m :: rest) := by
      rw [htable, List.map_append, List.map_cons, htracked] at hrecent
      rw [List.map_append]
      exact List.perm_middle.symm.trans hrecent
    have hnodup : (old.mac :: (before ++ after).map TxStats.mac).Nodup := by
      rw [hothers.nodup_iff, ← htracked]
      exact hs.nodup.sublist (List.drop_sublist _ _)
    have hnow : ((before ++ e' :: after).map TxStats.mac).Perm
        (mac :: (before ++ after).map TxStats.mac) := by
      rw [List.map_append, List.map_append, List.map_cons, hmac]
      exact List.perm_middle
    have hheld : (recent MAX_TRACKED_TX (touch mac h.order)).Perm (mac :: rest) := by
      rw [recent_touch_of_full (by decide) hlong hout]
      change (h.tracked.tail ++ [mac]).Perm _
      rw [htracked]
      exact List.perm_append_comm
    rw [hhead, ← tail_perm_iff hothers hnodup, hnow.congr_left, hheld.congr_right,
      List.perm_cons]

/-- The frames that an entry has counted ahead of the next one from `mac`. -/
def heardFrom (h : History) (mac : Mac) : List (Option Bool) :=
  if mac ∈ h.tracked then h.frames mac else []

theorem frames_frame (mac : Mac) (seq : Option UInt16) (retry : Option Bool) (m : Mac) :
    (h.step (.recordTxFrame mac seq retry)).frames m =
      if m = mac then h.heardFrom mac ++ [retry] else h.frames m := by
  change Function.update h.frames mac _ m = _
  rw [Function.update_apply]
  unfold heardFrom
  split_ifs <;> rfl

theorem Kept.counted (hk : h.Kept) (hslot : TxSlot h.stats.marked mac seq before e after) :
    e.frames.toNat = (h.heardFrom mac).length ∧
      e.retries.toNat = (h.heardFrom mac).count (some true) := by
  have hmem : mac ∈ h.stats.perTx.map TxStats.mac ↔ mac ∈ h.tracked := hk.recent.mem_iff
  unfold heardFrom
  rcases Stats.slot_entry hk.distinct hslot with ⟨x, hx, rfl, -, ⟨resync, rfl⟩, -⟩ | ⟨rfl, hnew⟩
  · rw [if_pos (hmem.mp (List.mem_map_of_mem hx))]
    exact ⟨hk.frames x hx, hk.retries x hx⟩
  · rw [if_neg (mt hmem.mpr hnew)]
    exact ⟨rfl, rfl⟩

theorem Kept.counts (hs : h.Clocked) (hk : h.Kept) (hwidth : h.clock + 1 < h.begun + 2 ^ 32)
    (hslot : TxSlot h.stats.marked mac seq before e after) (retry : Option Bool) {x : TxStats}
    (hx : x ∈ before ++ (e.record seq retry h.stats.perTxClock).2 :: after) :
    let h' := h.step (.recordTxFrame mac seq retry)
    x.frames.toNat = (h'.frames x.mac).length ∧
      x.retries.toNat = (h'.frames x.mac).count (some true) := by
  intro h'
  rw [frames_frame]
  rcases Stats.slot_cases hs.distinct hslot hx with rfl | ⟨hother, hin⟩
  · obtain ⟨hframes, hretries⟩ := hk.counted hslot
    have hfew : (h.heardFrom mac).length ≤ h.clock - h.begun := by
      unfold heardFrom
      split_ifs
      · exact hs.few mac
      · simp
    have hbegun := hs.begun
    have hle := List.count_le_length (l := h.heardFrom mac) (a := some true)
    have hone : (1 : UInt32).toNat = 1 := rfl
    rw [TxStats.record_mac, hslot.mac_eq, if_pos rfl, TxStats.record_frames,
      TxStats.record_retries, List.length_append, List.length_singleton, List.count_append,
      List.count_singleton, UInt32.toNat_add, hframes, hone]
    refine ⟨by omega, ?_⟩
    by_cases hretry : retry = some true
    · rw [if_pos hretry, UInt32.toNat_add, hretries, hone]
      simp [hretry]
      omega
    · simp [hretry, hretries]
  · obtain ⟨x', hx', resync, rfl⟩ := Stats.exists_of_mem_marked hin
    rw [if_neg hother]
    exact ⟨hk.frames x' hx', hk.retries x' hx'⟩

theorem kept_frame_iff (hs : h.Clocked) (hk : h.Kept) (hwidth : h.clock + 1 < h.begun + 2 ^ 32)
    (mac : Mac) (seq : Option UInt16) (retry : Option Bool) :
    (h.step (.recordTxFrame mac seq retry)).Kept ↔ h.WithinWidth (.recordTxFrame mac seq retry) := by
  obtain ⟨before, e, after, hslot, hshown, heq⟩ := h.stats.exists_recordTxFrame mac seq retry
  have hstats : (h.step (.recordTxFrame mac seq retry)).stats = _ := heq
  have hmac : (e.record seq retry h.stats.perTxClock).2.mac = mac := by
    rw [TxStats.record_mac, hslot.mac_eq]
  have hrecent := recent_iff hs hk (by omega) hslot hmac
  have htotal := total_iff (hs.frame mac seq retry).drops
  have hgaps := hk.gaps
  have hgapsum : (h.step (.recordTxFrame mac seq retry)).gaps =
      h.gaps + (h.stats.gapShown mac seq retry).toNat := rfl
  have hadd := UInt32.toNat_add h.stats.rxSeqGap (h.stats.gapShown mac seq retry)
  rw [hstats] at htotal
  constructor
  -- the perm says which entry went, the sums that none of the counters wrapped
  · intro hk'
    refine ⟨hrecent.mp ?_, ?_⟩
    · have hperm := hk'.recent
      rwa [hstats] at hperm
    · have hgaps' := hk'.gaps
      have hdrops' := hk'.drops
      rw [hstats, hgapsum] at hgaps'
      rw [hstats] at hdrops'
      have hfits := htotal.mp hdrops'
      dsimp only at hgaps' hfits
      omega
  · rintro ⟨hevicts, hfits⟩
    have hperm := hrecent.mpr hevicts
    have hcounts := fun x hx => hk.counts hs hwidth hslot retry (x := x) hx
    constructor
    case few =>
      rw [hstats, ← List.length_map (f := TxStats.mac), hperm.length_eq, length_recent]
      exact Nat.min_le_left _ _
    case distinct =>
      rw [hstats]
      exact hslot.nodup (Stats.nodup_marked hs.distinct) hmac
    case recent =>
      rw [hstats]
      exact hperm
    case frames =>
      intro x hx
      rw [hstats] at hx
      exact (hcounts x hx).1
    case retries =>
      intro x hx
      rw [hstats] at hx
      exact (hcounts x hx).2
    case gaps =>
      rw [hstats, hgapsum]
      dsimp only
      omega
    case drops =>
      rw [hstats]
      apply htotal.mpr
      dsimp only
      omega

theorem kept_reset (s : Stats) : (reset s).Kept where
  few := Nat.zero_le _
  distinct := List.nodup_nil
  recent := .refl _
  frames := by simp [reset, Stats.reset, Stats.boot]
  retries := by simp [reset, Stats.reset, Stats.boot]
  gaps := rfl
  drops := rfl

theorem Kept.lose_iff (hk : h.Kept) {s : Stats} (htable : s.perTx = h.stats.perTx)
    (hgaps : s.rxSeqGap = h.stats.rxSeqGap)
    (hdrops : s.rxDropCount = s.rxOversize + s.rxQueueFull + s.rxSeqGap) :
    Kept { h with stats := s } ↔ s.rxOversize.toNat + s.rxQueueFull.toNat + h.gaps < 2 ^ 32 := by
  have htotal := total_iff hdrops
  rw [hgaps, hk.gaps] at htotal
  constructor
  · intro hk'
    have hdrops' := hk'.drops
    apply htotal.mp
    dsimp only at hdrops'
    rwa [hgaps, hk.gaps] at hdrops'
  · intro hfits
    refine ⟨?_, ?_, ?_, ?_, ?_, ?_, ?_⟩
    · exact htable ▸ hk.few
    · exact htable ▸ hk.distinct
    · exact htable ▸ hk.recent
    · exact htable ▸ hk.frames
    · exact htable ▸ hk.retries
    · exact hgaps ▸ hk.gaps
    · dsimp only
      rw [hgaps, hk.gaps]
      exact htotal.mpr hfits

/-- The step is not the 2^32nd frame. -/
def Fits (h : History) (c : Stats.Call) : Prop := c.isFrame = true → h.clock + 1 < h.begun + 2 ^ 32

theorem kept_step_iff (hs : h.Clocked) (hk : h.Kept) {c : Stats.Call} (hfits : h.Fits c) :
    (h.step c).Kept ↔ h.WithinWidth c := by
  cases c with
  | recordTxFrame mac seq retry => exact kept_frame_iff hs hk (hfits rfl) mac seq retry
  | oversize => exact hk.lose_iff rfl rfl (hs.step .oversize).drops
  | queueFull => exact hk.lose_iff rfl rfl (hs.step .queueFull).drops
  | resetSeqTracker =>
    refine iff_of_true ?_ trivial
    exact ⟨hk.few, hk.distinct, hk.recent, hk.frames, hk.retries, hk.gaps, hk.drops⟩

theorem clock_run (s : Stats) (cs : List Stats.Call) :
    (run step (reset s) cs).clock =
      (run step (reset s) cs).begun + cs.countP Stats.Call.isFrame := by
  induction cs using List.reverseRecOn with
  | nil => rfl
  | append_singleton cs c ih =>
    rw [run_concat, List.countP_append, List.countP_singleton]
    cases c with
    | recordTxFrame mac seq retry =>
      change (run step (reset s) cs).clock + 1 = (run step (reset s) cs).begun + _
      rw [ih]
      rfl
    | oversize | queueFull | resetSeqTracker => exact ih

/-- Over fewer than 2^32 frames since a reset, the table keeps to the transmitters heard most
recently, and the counters add up, exactly when no loss counter outgrows its width and no entry is
evicted across a wrap of the clock, which no reset restarts. -/
theorem always_kept_iff (s : Stats) (cs : List Stats.Call)
    (hfew : cs.countP Stats.Call.isFrame < 2 ^ 32) :
    Always step Kept (reset s) cs ↔ Along step WithinWidth (reset s) cs := by
  have hfits : Along step Fits (reset s) cs := by
    intro pre c hpre hframe
    have hle := hpre.sublist.countP_le (p := Stats.Call.isFrame)
    rw [List.countP_append, List.countP_singleton, if_pos hframe] at hle
    rw [clock_run]
    omega
  exact always_iff_along hfits (clocked_reset s) (kept_reset s)
    (fun h c hs hk hc => kept_step_iff hs hk hc) (fun h c hs _ _ _ => hs.step c)

/-- One frame from each of 17 transmitters. -/
def seventeen : List Stats.Call :=
  (List.range 17).map fun i => .recordTxFrame ⟨0, 0, 0, 0, 0, UInt8.ofNat i⟩ (some 0) (some false)

theorem always_kept_iff_seventeen : Always step Kept (reset .boot) seventeen :=
  (always_kept_iff .boot seventeen (by decide +kernel)).mpr (by decide +kernel)

/-- The clock as 2^32 - 1 frames of an earlier run leave it. -/
def lateClock : Stats := { Stats.boot with perTxClock := 4294967295 }

theorem reset_run_frames (n : ℕ) :
    (run Stats.call .boot (List.replicate n (.recordTxFrame .zero none none))).reset =
      { Stats.boot with perTxClock := UInt32.ofNat n } := by
  have hflags : let s := run Stats.call .boot (List.replicate n (.recordTxFrame .zero none none))
      s.perTxClock = UInt32.ofNat n ∧ s.resetSeqTracker = false ∧ s.seqDropDetection = false := by
    induction n with
    | zero => exact ⟨rfl, rfl, rfl⟩
    | succ n ih =>
      obtain ⟨hclock, -, hdetect⟩ := ih
      rw [List.replicate_succ', run_concat]
      obtain ⟨before, e, after, -, -, heq⟩ := Stats.exists_recordTxFrame
        (run Stats.call .boot (List.replicate n (.recordTxFrame .zero none none))) .zero none none
      rw [Stats.call, heq]
      refine ⟨?_, rfl, hdetect⟩
      rw [UInt32.ofNat_add, hclock]
      rfl
  obtain ⟨hclock, hreset, hdetect⟩ := hflags
  rw [Stats.reset, hclock, hreset, hdetect]
  rfl

/-- The clock wraps after the first of them, whose entry then seems the most recent. -/
theorem not_always_kept :
    (run Stats.call .boot (List.replicate 4294967295 (.recordTxFrame .zero none none))).reset =
        lateClock.reset ∧
      ¬ Always step Kept (reset lateClock) seventeen := by
  refine ⟨reset_run_frames 4294967295, fun h => ?_⟩
  have hperm := h.last.recent
  revert hperm
  decide +kernel

end History

end EspCsi
