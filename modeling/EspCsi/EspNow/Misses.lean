import EspCsi.EspNow.Lock
import EspCsi.Lib.Missing

/-!
# Missed control packets

What the responder's sequence counters say of the initiator's numbers it took in. The driver keeps the
last number and adds what each step forward passes over.
-/

namespace EspCsi.EspNow

open Wire Transition Missing

/-- The part of a responder that counts control packets. -/
structure Tally where
  controlPackets : UInt64
  sequenceMiss : UInt64
  sequenceInitialized : Bool
  lastControlSequence : UInt32
deriving DecidableEq

namespace Tally

def start : Tally := ⟨0, 0, false, 0⟩

def count (t : Tally) (number : UInt32) : Tally where
  controlPackets := t.controlPackets + 1
  sequenceMiss := t.sequenceMiss + UInt64.ofNat
    (if t.sequenceInitialized ∧ (number.toNat : ℤ) - t.lastControlSequence.toNat > 1 then
      ((number.toNat : ℤ) - t.lastControlSequence.toNat - 1).toNat else 0)
  sequenceInitialized := true
  lastControlSequence := number

end Tally

def numbers (l : List UInt32) : Finset ℕ := (l.map UInt32.toNat).toFinset

theorem numbers_concat (l : List UInt32) (n : UInt32) :
    numbers (l ++ [n]) = insert n.toNat (numbers l) := by
  ext k
  simp [numbers, eq_comm]

theorem spans_numbers {l : List UInt32} (h : l ≠ []) (hl : l.Pairwise (· ≤ ·)) :
    Spans (numbers l) (l.head h).toNat (l.getLast h).toNat := by
  have hmap : l.map UInt32.toNat ≠ [] := mt List.map_eq_nil_iff.mp h
  have hordered : (l.map UInt32.toNat).Pairwise (· ≤ ·) :=
    List.pairwise_map.mpr (hl.imp UInt32.le_iff_toNat_le.mp)
  have hspans := spans_toFinset hmap hordered
  rwa [List.head_map, List.getLast_map] at hspans

theorem missing_add_length {l : List UInt32} (h : l ≠ []) (hl : l.Pairwise (· ≤ ·))
    (hnodup : l.Nodup) :
    missing (numbers l) + l.length = (l.getLast h).toNat - (l.head h).toNat + 1 := by
  have hcard : (numbers l).card = l.length := by
    have hmap : (l.map UInt32.toNat).Nodup := hnodup.map fun a b => UInt32.toNat_inj.mp
    rw [numbers, List.toFinset_card_of_nodup hmap, List.length_map]
  have hspans := spans_numbers h hl
  have hspan := hspans.missing_add_card
  have hle := (hspans.le _ hspans.last_mem).1
  omega

namespace Tally

/-- The counters say what the numbers taken in so far show. -/
structure Counts (l : List UInt32) (t : Tally) : Prop where
  counted : t.controlPackets = UInt64.ofNat l.length
  missed : t.sequenceMiss.toNat = missing (numbers l)
  initialized : t.sequenceInitialized = true ↔ l ≠ []
  last : ∀ h : l ≠ [], t.lastControlSequence = l.getLast h

theorem counts_start : start.Counts [] where
  counted := rfl
  missed := rfl
  initialized := by simp [start]
  last := fun h => absurd rfl h

theorem missing_concat {l : List UInt32} (h : l ≠ []) {n : UInt32}
    (hl : (l ++ [n]).Pairwise (· ≤ ·)) :
    missing (numbers (l ++ [n])) = missing (numbers l) + (n.toNat - (l.getLast h).toNat - 1) := by
  obtain ⟨hpair, -, hlast⟩ := List.pairwise_append.mp hl
  have hspans := spans_numbers h hpair
  have hle : (l.getLast h).toNat ≤ n.toNat :=
    UInt32.le_iff_toNat_le.mp (hlast _ (List.getLast_mem h) n (List.mem_singleton_self n))
  have hfirst := (hspans.le _ hspans.last_mem).1
  have hinsert := hspans.missing_insert n.toNat
  rw [numbers_concat]
  split_ifs at hinsert <;> omega

theorem Counts.count {l : List UInt32} {t : Tally} (h : t.Counts l) {n : UInt32}
    (hl : (l ++ [n]).Pairwise (· ≤ ·)) : (t.count n).Counts (l ++ [n]) where
  counted := by
    rw [Tally.count, h.counted, List.length_append, List.length_singleton, UInt64.ofNat_add]
    rfl
  missed := by
    -- the numbers missing lie below `n`, so that the sum does not wrap
    have hbound : missing (numbers (l ++ [n])) ≤ n.toNat := by
      have hspan := (spans_numbers (by simp) hl).missing_add_card
      have hcard := Finset.card_pos.mpr ⟨_, (spans_numbers (by simp) hl).last_mem⟩
      rw [List.getLast_append_singleton] at hspan
      omega
    have hn := n.toNat_lt
    by_cases hnil : l = []
    -- the first number only sets the last one seen
    · have hinit : ¬ t.sequenceInitialized = true := fun hinit => h.initialized.mp hinit hnil
      have hmissed := h.missed
      subst hnil
      rw [Tally.count, if_neg fun hgap => hinit hgap.1, UInt64.toNat_add, hmissed]
      simp [numbers, missing_singleton]
      rfl
    · have hinit := h.initialized.mpr hnil
      have hgap : (if t.sequenceInitialized ∧
            (n.toNat : ℤ) - t.lastControlSequence.toNat > 1 then
          ((n.toNat : ℤ) - t.lastControlSequence.toNat - 1).toNat else 0) =
          n.toNat - (l.getLast hnil).toNat - 1 := by
        rw [h.last hnil]
        split_ifs with hforward
        · omega
        · have hback : ¬ (n.toNat : ℤ) - (l.getLast hnil).toNat > 1 :=
            fun hgap => hforward ⟨hinit, hgap⟩
          omega
      have hsum := missing_concat hnil hl
      rw [Tally.count, hgap, UInt64.toNat_add, h.missed, UInt64.toNat_ofNat', hsum]
      omega
  initialized := by simp [Tally.count]
  last := by simp [Tally.count]

theorem counts_foldl {l : List UInt32} (hl : l.Pairwise (· ≤ ·)) :
    (l.foldl count start).Counts l := by
  induction l using List.reverseRecOn with
  | nil => exact counts_start
  | append_singleton l n ih =>
    -- a prefix of numbers in order is in order
    rw [List.foldl_append]
    exact (ih (List.pairwise_append.mp hl).1).count hl

end Tally

namespace Responder

def tally (s : Responder) : Tally where
  controlPackets := s.rx.controlPackets
  sequenceMiss := s.rx.sequenceMiss
  sequenceInitialized := s.shared.sequenceInitialized
  lastControlSequence := s.shared.lastControlSequence

def ingests (s : Responder) : Turn → Option UInt32
  | .ingest r _ => (s.accepts r).map ControlPacket.sequenceNumber
  | _ => none

def ingested (board : Csi.Board) (txEnabled : Bool) (s : Responder) : List Turn → List UInt32
  | [] => []
  | t :: ts => (s.ingests t).toList ++ ingested board txEnabled (s.turn board txEnabled t) ts

def brings (a : Mac) (expectMagic : Bool) : Turn → Option UInt32
  | .ingest r _ =>
    if r.srcAddress = a then
      (parseWithMagic controlPacketCodec r.data INITIATOR_MAGIC_NUMBER expectMagic).map
        ControlPacket.sequenceNumber
    else none
  | _ => none

/-- Until it is locked on `a`, the responder takes in no control packet of another source. -/
def HearsOne (a : Mac) (s : Responder) : Turn → Prop
  | .ingest r _ => s.LockedOn a ∨ r.srcAddress = a ∨ s.accepts r = none
  | _ => True

instance (a : Mac) (s : Responder) (t : Turn) : Decidable (s.HearsOne a t) :=
  match t with
  | .ingest _ _ => inferInstanceAs (Decidable ((_ ∧ _) ∨ _ ∨ _))
  | .reply | .call _ => isTrue trivial

theorem connect_tally (s : Responder) (src : Mac) (registers : Bool) :
    (s.connect src registers).tally = s.tally := by
  unfold connect
  dsimp only
  split_ifs <;> rfl

theorem followReporting_tally (s : Responder) (initiatorReports : Bool) :
    (s.followReporting initiatorReports).tally = s.tally := by
  rw [followReporting_eq_promotes]
  rfl

theorem ingest_tally (s : Responder) (r : PoolFrame) (packet : ControlPacket)
    (txEnabled registers : Bool) :
    (s.ingest r packet txEnabled registers).tally = s.tally.count packet.sequenceNumber := by
  have hcount : ((s.sound packet r.nth).countSequence packet).tally =
      s.tally.count packet.sequenceNumber := rfl
  rw [ingest, followReporting_tally]
  split_ifs
  · rw [connect_tally, hcount]
  · exact hcount

theorem turn_tally (board : Csi.Board) (txEnabled : Bool) (s : Responder) (t : Turn) :
    (s.turn board txEnabled t).tally = (s.ingests t).toList.foldl Tally.count s.tally := by
  cases t with
  | ingest r registers =>
    cases haccepts : s.accepts r with
    | none =>
      obtain ⟨d, heq⟩ := ingestControlPacket_refused haccepts txEnabled registers
      rw [turn, heq, ingests, haccepts]
      rfl
    | some packet =>
      rw [turn, ingestControlPacket_of_accepts haccepts, ingest_tally, ingests, haccepts]
      rfl
  | reply =>
    simp only [turn, reply, ingests]
    split_ifs <;> rfl
  | call e => rfl

theorem run_tally (board : Csi.Board) (txEnabled : Bool) (s : Responder) (ts : List Turn) :
    (run (turn board txEnabled) s ts).tally =
      (ingested board txEnabled s ts).foldl Tally.count s.tally := by
  induction ts generalizing s with
  | nil => rfl
  | cons t ts ih => rw [run_cons, ih, ingested, List.foldl_append, turn_tally]

theorem brings_of_ingests {a : Mac} {s : Responder} {t : Turn} (h : s.HearsOne a t) {n : UInt32}
    (hn : s.ingests t = some n) : brings a s.config.peerMac.isNone t = some n := by
  cases t with
  | ingest r registers =>
    obtain ⟨packet, haccepts, rfl⟩ := Option.map_eq_some_iff.mp hn
    have hsrc : r.srcAddress = a := by
      by_contra hother
      have hnone : s.accepts r = none := by
        rcases h with hlocked | hsame | hnone
        · exact accepts_of_lockedOn hlocked hother
        · exact absurd hsame hother
        · exact hnone
      simp [hnone] at haccepts
    rw [brings, if_pos hsrc, parse_of_accepts haccepts]
    rfl
  | reply | call => cases hn

theorem ingested_sublist (board : Csi.Board) (txEnabled : Bool) {a : Mac} {s : Responder}
    {ts : List Turn} (h : Along (turn board txEnabled) (HearsOne a) s ts) :
    (ingested board txEnabled s ts).Sublist (ts.filterMap (brings a s.config.peerMac.isNone)) := by
  induction ts generalizing s with
  | nil => exact List.Sublist.slnil
  | cons t ts ih =>
    obtain ⟨ht, hts⟩ := along_cons.mp h
    have hrest := ih hts
    rw [turn_config] at hrest
    rw [ingested, List.filterMap_cons]
    cases hn : s.ingests t with
    | none =>
      -- what `a` brings may still be refused
      cases brings a s.config.peerMac.isNone t with
      | none => exact hrest
      | some m => exact hrest.cons m
    | some n =>
      rw [brings_of_ingests ht hn]
      exact hrest.cons_cons n

/-- A responder that hears one initiator in order misses exactly the numbers between the first and the
last it took in that it did not take in; with those it took in, and no duplicates, they are all that
the initiator used in between. -/
theorem misses_exact (mac : Mac) (chip : Chip) (config : EspNowConfig) (rawListen : Bool)
    (node : Csi.Node) (board : Csi.Board) (txEnabled : Bool) (a : Mac) (ts : List Turn)
    (hone : Along (turn board txEnabled) (HearsOne a) (.start mac chip config rawListen node) ts)
    (hordered : (ts.filterMap (brings a config.peerMac.isNone)).Pairwise (· ≤ ·)) :
    let l := ingested board txEnabled (.start mac chip config rawListen node) ts
    let s := run (turn board txEnabled) (.start mac chip config rawListen node) ts
    s.rx.controlPackets = UInt64.ofNat l.length ∧
      s.rx.sequenceMiss.toNat = missing (numbers l) ∧
      ∀ h : l ≠ [], l.Nodup →
        s.rx.sequenceMiss.toNat + l.length = (l.getLast h).toNat - (l.head h).toNat + 1 := by
  intro l s
  have hl : l.Pairwise (· ≤ ·) := hordered.sublist (ingested_sublist board txEnabled hone)
  have hcounts : s.tally.Counts l := by
    rw [run_tally]
    exact Tally.counts_foldl hl
  have hmissed : s.rx.sequenceMiss.toNat = missing (numbers l) := hcounts.missed
  refine ⟨hcounts.counted, hmissed, ?_⟩
  intro h hnodup
  rw [hmissed]
  exact missing_add_length h hl hnodup

theorem misses_exact_run :
    let a : Mac := ⟨2, 0, 0, 0, 0, 1⟩
    let b : Mac := ⟨2, 0, 0, 0, 0, 2⟩
    let ts : List Turn :=
      [.ingest (Paired.controlFrame a 3) true, .ingest (Paired.controlFrame b 5) true,
        .ingest (Paired.controlFrame a 3) true, .ingest (Paired.controlFrame a 7) true]
    (run (turn .esp32 true) (.start .zero .esp32 .default false .boot) ts).rx.controlPackets =
        UInt64.ofNat (ingested .esp32 true (.start .zero .esp32 .default false .boot) ts).length ∧
      (ingested .esp32 true (.start .zero .esp32 .default false .boot) ts).length = 3 :=
  ⟨(misses_exact .zero .esp32 .default false .boot .esp32 true ⟨2, 0, 0, 0, 0, 1⟩ _
    (by decide +kernel) (by decide +kernel)).1, by decide +kernel⟩

end Responder

end EspCsi.EspNow
