import EspCsi.Lib.Checked
import EspCsi.Lib.RoundRobin
import EspCsi.Wire.Types

/-!
# The synthetic measurement source

`wire/synthetic.rs`: one grouped report per responder and sounding instance, over a grouped HE20 tone
plan. Its arithmetic is checked, so a call of a build with overflow checks that would stop has no
result.
-/

namespace EspCsi.Wire

def SC_START : Int16 := -122

def SC_SPAN : UInt16 := 245

/-- The generator. `nextResponder` and `nowUs` are words of 32 and 64 bits in the source. -/
structure SyntheticBf where
  setupId : UInt8
  responders : List Mac
  ng : UInt8
  instance_ : UInt16
  nextResponder : ℕ
  periodicityUs : UInt32
  nowUs : ℕ
  rng : UInt32
deriving DecidableEq, Repr

namespace SyntheticBf

def new (setupId : UInt8) (responders : List Mac) (ng : UInt8) (periodicityUs seed : UInt32) :
    SyntheticBf where
  setupId
  responders
  ng := if ng = 0 then 1 else ng
  instance_ := 0
  nextResponder := 0
  periodicityUs
  nowUs := 0
  rng := if seed = 0 then 0x9E3779B9 else seed

def nSc (s : SyntheticBf) : UInt16 :=
  let ng := s.ng.toUInt16
  if SC_SPAN % ng > 0 then SC_SPAN / ng + 1 else SC_SPAN / ng

def rand (x : UInt32) : UInt32 :=
  let x := x ^^^ (x <<< 13)
  let x := x ^^^ (x >>> 17)
  x ^^^ (x <<< 5)

/-- A slow triangle wave over instances. -/
def motion (s : SyntheticBf) : Option ℤ :=
  let phase : ℤ := (s.instance_ % 64).toNat
  if phase < 32 then some phase else Checked.int 32 (64 - phase)

/-- One subcarrier's value, in 32-bit arithmetic. -/
def sample (r : ℕ) (motion : ℤ) (rng : UInt32) (k : ℕ) : Option UInt8 := do
  let r := (Int32.ofNat r).toInt
  let tone ← Checked.int 32 (k * 7)
  let own ← Checked.int 32 (r * 29)
  let place ← Checked.int 32 (tone + own)
  -- `%` and `/` of signed integers truncate towards zero
  let base ← Checked.int 32 (96 + place.tmod 64)
  let noise ← Checked.int 32 ((rng % 5).toNat - 2)
  let scale ← Checked.int 32 (r + 1)
  let swing ← Checked.int 32 (motion * scale)
  let lifted ← Checked.int 32 (base + swing.tdiv 2)
  let v ← Checked.int 32 (lifted + noise)
  some (UInt8.ofNat (max 0 (min v 255)).toNat)

/-- A push into a full vector is dropped. -/
def pushByte (data : HVec UInt8 MAX_CSI_BYTES) (b : UInt8) : HVec UInt8 MAX_CSI_BYTES :=
  if h : data.val.length < MAX_CSI_BYTES then ⟨data.val ++ [b], by rwa [List.length_append]⟩ else data

/-- A turn of the loop over subcarriers: the random number it draws, and the values so far. -/
def sampleStep (r : ℕ) (motion : ℤ) (s : UInt32 × HVec UInt8 MAX_CSI_BYTES) (k : ℕ) :
    Option (UInt32 × HVec UInt8 MAX_CSI_BYTES) :=
  (sample r motion (rand s.1) k).map fun v => (rand s.1, pushByte s.2 v)

def samples (r : ℕ) (motion : ℤ) (rng : UInt32) (n : ℕ) :
    Option (UInt32 × HVec UInt8 MAX_CSI_BYTES) :=
  (List.range n).foldlM (sampleStep r motion) (rng, ⟨[], Nat.zero_le _⟩)

/-- The signal strength of responder `r`: the responder's index is cast to 8 signed bits. -/
def rssi (r : ℕ) : Option ℤ := do
  let lower ← Checked.int 8 (3 * (Int8.ofNat r).toInt)
  Checked.int 8 (-40 - lower)

/-- The next report. Cycles through the responders; after the last one, the next sounding instance
begins `periodicityUs` later. -/
def nextFrame (s : SyntheticBf) : Option (CsiFrame × SyntheticBf) := do
  let r := s.nextResponder
  let ta ← s.responders[r]?
  let motion ← s.motion
  let (rng, data) ← samples r motion s.rng s.nSc.toNat
  -- the responders are sounded 50 µs apart
  let offset ← Checked.mul 64 r 50
  let timestampUs ← Checked.add 64 s.nowUs offset
  let rssi ← rssi r
  let frame : CsiFrame :=
    { rxMeta :=
        { timestampUs := UInt64.ofNat timestampUs
          rssi := Int8.ofInt rssi
          noiseFloor := -95
          channel := 36
          secondary := .none
          bandwidth := some .mhz20
          ppdu := .heSu
          mcs := none
          stbc := some false
          sgi := none
          nRx := 1
          nSs := some 1
          antenna := none
          sigLen := 0
          rxState := 0
          notSounding := some false
          aggregation := some false
          frameSeq := none
          vendor := .none }
      stimulus := .controlled s.setupId s.instance_ ta
      header := none
      payload := .grouped s.ng 8 SC_START s.nSc 1 1 data }
  let nextResponder ← Checked.add 32 s.nextResponder 1
  if nextResponder = s.responders.length then do
    let nowUs ← Checked.add 64 s.nowUs s.periodicityUs.toNat
    some (frame, { s with rng, nextResponder := 0, instance_ := s.instance_ + 1, nowUs })
  else some (frame, { s with rng, nextResponder })

def after (s : SyntheticBf) : ℕ → Option SyntheticBf
  | 0 => some s
  | k + 1 => (s.after k).bind fun s => s.nextFrame.map Prod.snd

/-- What call `k` returns, counted from 0. -/
def call (s : SyntheticBf) (k : ℕ) : Option CsiFrame :=
  (s.after k).bind fun s => s.nextFrame.map Prod.fst

/-! ## One report -/

theorem motion_eq (s : SyntheticBf) : ∃ m, s.motion = some m ∧ 0 ≤ m ∧ m ≤ 32 := by
  have hphase : (s.instance_ % 64).toNat < 64 := by
    rw [UInt16.toNat_mod]
    exact Nat.mod_lt _ (by decide)
  unfold motion
  dsimp only
  split_ifs with hup
  · exact ⟨_, rfl, by omega, by omega⟩
  · exact ⟨_, Checked.int32_eq (by omega) (by omega), by omega, by omega⟩

theorem sample_eq {r k : ℕ} (hr : r < 30) (hk : k < 245) {motion : ℤ} (hlow : 0 ≤ motion)
    (hhigh : motion ≤ 32) (rng : UInt32) : ∃ v, sample r motion rng k = some v := by
  have hcast : (Int32.ofNat r).toInt = r := Int32.toInt_ofNat_of_lt (by omega)
  have hnoise : (rng % 5).toNat < 5 := by
    rw [UInt32.toNat_mod]
    exact Nat.mod_lt _ (by decide)
  have hplace : 0 ≤ ((k : ℤ) * 7 + r * 29).tmod 64 ∧ ((k : ℤ) * 7 + r * 29).tmod 64 < 64 := by
    rw [Int.tmod_eq_emod_of_nonneg (by omega)]
    omega
  have hswing : 0 ≤ motion * (r + 1) ∧ motion * (r + 1) ≤ 32 * 30 :=
    ⟨Int.mul_nonneg hlow (by omega),
      Int.mul_le_mul hhigh (by omega) (by omega) (by omega)⟩
  have hhalf : 0 ≤ (motion * (r + 1)).tdiv 2 ∧ (motion * (r + 1)).tdiv 2 ≤ 480 := by
    rw [Int.tdiv_eq_ediv_of_nonneg hswing.1]
    omega
  have htone : Checked.int 32 ((k : ℤ) * 7) = some _ := Checked.int32_eq (by omega) (by omega)
  have hown : Checked.int 32 ((r : ℤ) * 29) = some _ := Checked.int32_eq (by omega) (by omega)
  have hsum : Checked.int 32 ((k : ℤ) * 7 + r * 29) = some _ :=
    Checked.int32_eq (by omega) (by omega)
  have hbase : Checked.int 32 (96 + ((k : ℤ) * 7 + r * 29).tmod 64) = some _ :=
    Checked.int32_eq (by omega) (by omega)
  have hjitter : Checked.int 32 (((rng % 5).toNat : ℤ) - 2) = some _ :=
    Checked.int32_eq (by omega) (by omega)
  have hscale : Checked.int 32 ((r : ℤ) + 1) = some _ := Checked.int32_eq (by omega) (by omega)
  have hmoved : Checked.int 32 (motion * (r + 1)) = some _ :=
    Checked.int32_eq (by omega) (by omega)
  have hlifted : Checked.int 32
      (96 + ((k : ℤ) * 7 + r * 29).tmod 64 + (motion * (r + 1)).tdiv 2) = some _ :=
    Checked.int32_eq (by omega) (by omega)
  have hv : Checked.int 32 (96 + ((k : ℤ) * 7 + r * 29).tmod 64 + (motion * (r + 1)).tdiv 2 +
      (((rng % 5).toNat : ℤ) - 2)) = some _ := Checked.int32_eq (by omega) (by omega)
  unfold sample
  rw [hcast]
  exact ⟨_, Checked.bind_eq htone <| Checked.bind_eq hown <| Checked.bind_eq hsum <|
    Checked.bind_eq hbase <| Checked.bind_eq hjitter <| Checked.bind_eq hscale <|
    Checked.bind_eq hmoved <| Checked.bind_eq hlifted <| Checked.bind_eq hv rfl⟩

theorem pushByte_length {data : HVec UInt8 MAX_CSI_BYTES} (h : data.val.length < MAX_CSI_BYTES)
    (b : UInt8) : (pushByte data b).val.length = data.val.length + 1 := by
  rw [pushByte, dif_pos h, List.length_append, List.length_singleton]

theorem samples_eq {r n : ℕ} (hr : r < 30) (hn : n ≤ 245) {motion : ℤ} (hlow : 0 ≤ motion)
    (hhigh : motion ≤ 32) (rng : UInt32) :
    ∃ rng' data, samples r motion rng n = some (rng', data) ∧ data.val.length = n := by
  induction n with
  | zero => exact ⟨rng, _, rfl, rfl⟩
  | succ n ih =>
    obtain ⟨rng', data, hdata, hlen⟩ := ih (by omega)
    obtain ⟨v, hv⟩ := sample_eq hr (Nat.lt_of_succ_le hn) hlow hhigh (rand rng')
    have hcap : MAX_CSI_BYTES = 612 := rfl
    have hroom : data.val.length < MAX_CSI_BYTES := by omega
    have hstep : sampleStep r motion (rng', data) n = some (rand rng', pushByte data v) := by
      rw [sampleStep, hv, Option.map_some]
    refine ⟨rand rng', pushByte data v, ?_, ?_⟩
    · rw [samples] at hdata ⊢
      rw [List.range_succ, List.foldlM_append, hdata]
      simp [hstep]
    · rw [pushByte_length hroom, hlen]

theorem rssi_eq {r : ℕ} (hr : r < 30) : ∃ v, rssi r = some v := by
  have hall : ∀ r < 30, (rssi r).isSome = true := by decide
  exact Option.isSome_iff_exists.mp (hall r hr)

theorem rssi_thirty : rssi 30 = none := by
  decide

theorem nSc_toNat {s : SyntheticBf} (hng : 0 < s.ng.toNat) :
    s.nSc.toNat = (245 + s.ng.toNat - 1) / s.ng.toNat := by
  have hsplit := Nat.div_add_mod 245 s.ng.toNat
  have hmod := Nat.mod_lt 245 hng
  have hquot : 245 / s.ng.toNat ≤ 245 := Nat.div_le_self _ _
  have hspan : SC_SPAN.toNat = 245 := rfl
  have hrest : SC_SPAN % s.ng.toUInt16 > 0 ↔ 0 < 245 % s.ng.toNat := by
    rw [gt_iff_lt, UInt16.lt_iff_toNat_lt, UInt16.toNat_mod, hspan, UInt8.toNat_toUInt16]
    rfl
  have hdiv : (SC_SPAN / s.ng.toUInt16).toNat = 245 / s.ng.toNat := by
    rw [UInt16.toNat_div, hspan, UInt8.toNat_toUInt16]
  unfold nSc
  dsimp only
  by_cases hpart : 0 < 245 % s.ng.toNat
  · rw [if_pos (hrest.mpr hpart), UInt16.toNat_add, hdiv]
    have hceil : (245 + s.ng.toNat - 1) / s.ng.toNat = 245 / s.ng.toNat + 1 := by
      apply Nat.div_eq_of_lt_le
      · rw [Nat.mul_comm, Nat.mul_succ]
        omega
      · rw [Nat.mul_comm, Nat.mul_succ, Nat.mul_succ]
        omega
    rw [hceil]
    show (245 / s.ng.toNat + 1) % 2 ^ 16 = _
    omega
  · rw [if_neg (mt hrest.mp hpart), hdiv]
    symm
    apply Nat.div_eq_of_lt_le
    · rw [Nat.mul_comm]
      omega
    · rw [Nat.mul_comm, Nat.mul_succ]
      omega

theorem nSc_le {s : SyntheticBf} (hng : 0 < s.ng.toNat) : s.nSc.toNat ≤ 245 := by
  rw [nSc_toNat hng]
  apply Nat.div_le_of_le_mul
  omega

/-! ## The schedule -/

/-- The arithmetic of call `k` fits: one of the first thirty responders is reported, and the
timestamp and the clock after the call fit 64 bits. -/
def CallFits (responders periodicityUs k : ℕ) : Prop :=
  k % responders < 30 ∧ k / responders * periodicityUs + 50 * (k % responders) < 2 ^ 64 ∧
    (k + 1) / responders * periodicityUs < 2 ^ 64

instance (responders periodicityUs k : ℕ) : Decidable (CallFits responders periodicityUs k) :=
  inferInstanceAs (Decidable (_ ∧ _ ∧ _))

structure OnSchedule (s₀ : SyntheticBf) (k : ℕ) (frame : CsiFrame) : Prop where
  transmitter : frame.transmitter = s₀.responders[k % s₀.responders.length]?
  stimulus : ∃ ta, frame.stimulus =
    .controlled s₀.setupId (UInt16.ofNat (k / s₀.responders.length)) ta
  timestamp : frame.rxMeta.timestampUs.toNat =
    k / s₀.responders.length * s₀.periodicityUs.toNat + 50 * (k % s₀.responders.length)
  payload : ∃ nSc data, frame.payload = .grouped s₀.ng 8 SC_START nSc 1 1 data ∧
    data.val.length = nSc.toNat ∧ nSc.toNat = (245 + s₀.ng.toNat - 1) / s₀.ng.toNat

structure At (s₀ : SyntheticBf) (k : ℕ) (s : SyntheticBf) : Prop where
  setupId : s.setupId = s₀.setupId
  responders : s.responders = s₀.responders
  ng : s.ng = s₀.ng
  periodicityUs : s.periodicityUs = s₀.periodicityUs
  instance_ : s.instance_ = UInt16.ofNat (k / s₀.responders.length)
  nextResponder : s.nextResponder = k % s₀.responders.length
  nowUs : s.nowUs = k / s₀.responders.length * s₀.periodicityUs.toNat

theorem At.stamp {s₀ s : SyntheticBf} {k : ℕ} (h : At s₀ k s) :
    s.nowUs + s.nextResponder * 50 =
      k / s₀.responders.length * s₀.periodicityUs.toNat + 50 * (k % s₀.responders.length) := by
  rw [h.nowUs, h.nextResponder, Nat.mul_comm (k % _) 50]

theorem At.onSchedule {s₀ s : SyntheticBf} {k : ℕ} (h : At s₀ k s) (hng : 0 < s.ng.toNat)
    (htime : s.nowUs + s.nextResponder * 50 < 2 ^ 64) {frame : CsiFrame} {ta : Mac}
    {data : HVec UInt8 MAX_CSI_BYTES} (hlen : data.val.length = s.nSc.toNat)
    (hta : s.responders[s.nextResponder]? = some ta)
    (hstimulus : frame.stimulus = .controlled s.setupId s.instance_ ta) (hheader : frame.header = none)
    (htimestamp : frame.rxMeta.timestampUs = UInt64.ofNat (s.nowUs + s.nextResponder * 50))
    (hpayload : frame.payload = .grouped s.ng 8 SC_START s.nSc 1 1 data) :
    OnSchedule s₀ k frame where
  transmitter := by
    rw [CsiFrame.transmitter, hheader, hstimulus, ← h.nextResponder, ← h.responders, hta]
    rfl
  stimulus := ⟨ta, by rw [hstimulus, h.setupId, h.instance_]⟩
  timestamp := by rw [htimestamp, UInt64.toNat_ofNat_of_lt' htime, h.stamp]
  payload := ⟨s.nSc, data, h.ng ▸ hpayload, hlen, h.ng ▸ nSc_toNat hng⟩

theorem At.nextFrame {s₀ s : SyntheticBf} {k : ℕ} (h : At s₀ k s) (hpos : 0 < s₀.responders.length)
    (hng : 0 < s₀.ng.toNat) (hfits : CallFits s₀.responders.length s₀.periodicityUs.toNat k) :
    ∃ frame s', s.nextFrame = some (frame, s') ∧ OnSchedule s₀ k frame ∧ At s₀ (k + 1) s' := by
  obtain ⟨hr, htime, hnow⟩ := hfits
  obtain ⟨hdiv, hmod⟩ := RoundRobin.div_mod_succ hpos k
  have hlt := Nat.mod_lt k hpos
  have hng' : 0 < s.ng.toNat := h.ng ▸ hng
  obtain ⟨ta, hta⟩ : ∃ ta, s.responders[s.nextResponder]? = some ta := by
    rw [h.responders, h.nextResponder]
    exact ⟨_, List.getElem?_eq_getElem hlt⟩
  obtain ⟨m, hm, hlow, hhigh⟩ := s.motion_eq
  obtain ⟨rng, data, hdata, hlen⟩ :=
    samples_eq (h.nextResponder ▸ hr) (nSc_le hng') hlow hhigh s.rng
  obtain ⟨v, hv⟩ := rssi_eq (h.nextResponder ▸ hr)
  have hoffset : Checked.mul 64 s.nextResponder 50 = some (s.nextResponder * 50) := by
    apply Checked.mul_eq
    rw [h.nextResponder]
    omega
  have htime' : s.nowUs + s.nextResponder * 50 < 2 ^ 64 := h.stamp ▸ htime
  have hsum : Checked.add 64 s.nowUs (s.nextResponder * 50) =
      some (s.nowUs + s.nextResponder * 50) := Checked.add_eq htime'
  have hnext : Checked.add 32 s.nextResponder 1 = some (s.nextResponder + 1) := by
    apply Checked.add_eq
    rw [h.nextResponder]
    omega
  have hlast : s.nextResponder + 1 = s.responders.length ↔
      k % s₀.responders.length + 1 = s₀.responders.length := by
    rw [h.nextResponder, h.responders]
  by_cases hwrap : k % s₀.responders.length + 1 = s₀.responders.length
  · rw [if_pos hwrap] at hdiv hmod
    have hclock : Checked.add 64 s.nowUs s.periodicityUs.toNat =
        some (s.nowUs + s.periodicityUs.toNat) := by
      apply Checked.add_eq
      rw [h.nowUs, h.periodicityUs, ← Nat.succ_mul]
      rwa [hdiv] at hnow
    refine ⟨_, _, Checked.bind_eq hta <| Checked.bind_eq hm <| Checked.bind_eq hdata <|
      Checked.bind_eq hoffset <| Checked.bind_eq hsum <| Checked.bind_eq hv <|
      Checked.bind_eq hnext <| (if_pos (hlast.mpr hwrap)).trans (Checked.bind_eq hclock rfl),
      h.onSchedule hng' htime' hlen hta rfl rfl rfl rfl, h.setupId, h.responders, h.ng,
      h.periodicityUs, ?_, hmod.symm, ?_⟩
    · rw [hdiv, UInt16.ofNat_add, ← h.instance_]
      rfl
    · rw [hdiv, Nat.succ_mul, ← h.nowUs, ← h.periodicityUs]
  · rw [if_neg hwrap] at hdiv hmod
    refine ⟨_, _, Checked.bind_eq hta <| Checked.bind_eq hm <| Checked.bind_eq hdata <|
      Checked.bind_eq hoffset <| Checked.bind_eq hsum <| Checked.bind_eq hv <|
      Checked.bind_eq hnext <| if_neg (mt hlast.mp hwrap),
      h.onSchedule hng' htime' hlen hta rfl rfl rfl rfl, h.setupId, h.responders, h.ng,
      h.periodicityUs, ?_, ?_, ?_⟩
    · rw [hdiv, ← h.instance_]
    · rw [hmod, ← h.nextResponder]
    · rw [hdiv, ← h.nowUs]

theorem At.nextFrame_eq_none {s₀ s : SyntheticBf} {k : ℕ} (h : At s₀ k s)
    (hpos : 0 < s₀.responders.length) (hreached : k % s₀.responders.length ≤ 30)
    (hfits : ¬ CallFits s₀.responders.length s₀.periodicityUs.toNat k) : s.nextFrame = none := by
  obtain ⟨hdiv, -⟩ := RoundRobin.div_mod_succ hpos k
  cases hframe : s.nextFrame with
  | none => rfl
  | some x =>
    exfalso
    apply hfits
    obtain ⟨ta, -, hrest⟩ := Option.bind_eq_some_iff.mp hframe
    obtain ⟨m, -, hrest⟩ := Option.bind_eq_some_iff.mp hrest
    obtain ⟨⟨rng, data⟩, -, hrest⟩ := Option.bind_eq_some_iff.mp hrest
    obtain ⟨offset, hoffset, hrest⟩ := Option.bind_eq_some_iff.mp hrest
    obtain ⟨stamp, hstamp, hrest⟩ := Option.bind_eq_some_iff.mp hrest
    obtain ⟨v, hv, hrest⟩ := Option.bind_eq_some_iff.mp hrest
    obtain ⟨next, hnext, hrest⟩ := Option.bind_eq_some_iff.mp hrest
    obtain ⟨rfl, -⟩ := Checked.fits_eq_some.mp hoffset
    obtain ⟨rfl, htime⟩ := Checked.fits_eq_some.mp hstamp
    obtain ⟨rfl, -⟩ := Checked.fits_eq_some.mp hnext
    have hr : k % s₀.responders.length < 30 := by
      refine lt_of_le_of_ne hreached ?_
      intro heq
      rw [h.nextResponder, heq, rssi_thirty] at hv
      cases hv
    rw [h.stamp] at htime
    refine ⟨hr, htime, ?_⟩
    -- the clock moves on behind the last responder only
    rw [hdiv]
    split_ifs with hwrap
    · have hlast : s.nextResponder + 1 = s.responders.length := by
        rw [h.nextResponder, h.responders, hwrap]
      obtain ⟨now, hnow, -⟩ := Option.bind_eq_some_iff.mp ((if_pos hlast).symm.trans hrest)
      obtain ⟨-, hnow⟩ := Checked.fits_eq_some.mp hnow
      rwa [h.nowUs, h.periodicityUs, ← Nat.succ_mul] at hnow
    · exact (Nat.le_add_right _ _).trans_lt htime

theorem reached_le {n p k : ℕ} (hpos : 0 < n) (h : ∀ j < k, CallFits n p j) : k % n ≤ 30 := by
  cases k with
  | zero => exact (Nat.zero_mod n).trans_le (Nat.zero_le 30)
  | succ k =>
    have hr := (h k (Nat.lt_succ_self k)).1
    obtain ⟨-, hmod⟩ := RoundRobin.div_mod_succ hpos k
    rw [hmod]
    split_ifs <;> omega

theorem after_eq {s₀ : SyntheticBf} {k : ℕ} (h₀ : At s₀ 0 s₀) (hpos : 0 < s₀.responders.length)
    (hng : 0 < s₀.ng.toNat)
    (hfits : ∀ j < k, CallFits s₀.responders.length s₀.periodicityUs.toNat j) :
    ∃ s, s₀.after k = some s ∧ At s₀ k s := by
  induction k with
  | zero => exact ⟨s₀, rfl, h₀⟩
  | succ k ih =>
    obtain ⟨s, hs, hat⟩ := ih fun j hj => hfits j (Nat.lt_succ_of_lt hj)
    obtain ⟨frame, s', hframe, -, hat'⟩ := hat.nextFrame hpos hng (hfits k (Nat.lt_succ_self k))
    exact ⟨s', Checked.bind_eq hs (by rw [hframe, Option.map_some]), hat'⟩

theorem fits_of_after {s₀ s : SyntheticBf} {k : ℕ} (h₀ : At s₀ 0 s₀)
    (hpos : 0 < s₀.responders.length) (hng : 0 < s₀.ng.toNat) (h : s₀.after k = some s) :
    ∀ j < k, CallFits s₀.responders.length s₀.periodicityUs.toNat j := by
  induction k generalizing s with
  | zero => exact fun j hj => absurd hj (Nat.not_lt_zero j)
  | succ k ih =>
    obtain ⟨s', hs', hmap⟩ := Option.bind_eq_some_iff.mp h
    have hbefore := ih hs'
    obtain ⟨s'', hs'', hat⟩ := after_eq h₀ hpos hng hbefore
    obtain rfl : s' = s'' := Option.some_inj.mp (hs'.symm.trans hs'')
    intro j hj
    rcases Nat.lt_succ_iff_lt_or_eq.mp hj with hlt | rfl
    · exact hbefore j hlt
    · by_contra hnot
      rw [hat.nextFrame_eq_none hpos (reached_le hpos hbefore) hnot] at hmap
      cases hmap

theorem call_iff_fits {s₀ : SyntheticBf} {k : ℕ} (h₀ : At s₀ 0 s₀)
    (hpos : 0 < s₀.responders.length) (hng : 0 < s₀.ng.toNat) :
    (∃ frame, s₀.call k = some frame ∧ OnSchedule s₀ k frame) ↔
      ∀ j ≤ k, CallFits s₀.responders.length s₀.periodicityUs.toNat j := by
  constructor
  · rintro ⟨frame, hcall, -⟩ j hj
    obtain ⟨s, hs, hmap⟩ := Option.bind_eq_some_iff.mp hcall
    obtain ⟨x, hx, -⟩ := Option.map_eq_some_iff.mp hmap
    have hafter : s₀.after (k + 1) = some x.2 := Checked.bind_eq hs (by rw [hx, Option.map_some])
    exact fits_of_after h₀ hpos hng hafter j (Nat.lt_succ_of_le hj)
  · intro hfits
    obtain ⟨s, hs, hat⟩ := after_eq h₀ hpos hng fun j hj => hfits j (Nat.le_of_lt hj)
    obtain ⟨frame, s', hframe, hschedule, -⟩ := hat.nextFrame hpos hng (hfits k le_rfl)
    exact ⟨frame, Checked.bind_eq hs (by rw [hframe, Option.map_some]), hschedule⟩

/-- With a responder to sound, call `k` goes by schedule exactly when it comes before the thirty-first
or no more than thirty responders take turns, and no timestamp and no clock up to it reaches 64
bits. -/
theorem call_iff (setupId : UInt8) (responders : List Mac) (ng : UInt8) (periodicityUs seed : UInt32)
    (k : ℕ) (hpos : 1 ≤ responders.length) :
    (∃ frame, (new setupId responders ng periodicityUs seed).call k = some frame ∧
        OnSchedule (new setupId responders ng periodicityUs seed) k frame) ↔
      (k < 30 ∨ responders.length ≤ 30) ∧ ∀ j ≤ k,
        j / responders.length * periodicityUs.toNat + 50 * (j % responders.length) < 2 ^ 64 ∧
          (j + 1) / responders.length * periodicityUs.toNat < 2 ^ 64 := by
  have hng : 0 < (new setupId responders ng periodicityUs seed).ng.toNat := by
    simp only [new]
    split_ifs with hzero
    · decide
    · exact Nat.pos_of_ne_zero fun h => hzero (UInt8.toNat_inj.mp h)
  have hstart : At (new setupId responders ng periodicityUs seed) 0
      (new setupId responders ng periodicityUs seed) :=
    ⟨rfl, rfl, rfl, rfl, by simp [new], by simp [new], by simp [new]⟩
  rw [call_iff_fits hstart hpos hng]
  change (∀ j ≤ k, CallFits responders.length periodicityUs.toNat j) ↔ _
  constructor
  · intro hfits
    refine ⟨?_, fun j hj => (hfits j hj).2⟩
    by_contra hboth
    rw [not_or] at hboth
    -- call 30 is the first to report responder 30
    have hthirty := (hfits 30 (by omega)).1
    rw [Nat.mod_eq_of_lt (by omega)] at hthirty
    omega
  · rintro ⟨hfew, hclock⟩ j hj
    -- a responder's place is below the number of responders and at most the call's
    refine ⟨?_, hclock j hj⟩
    have hmod := Nat.mod_lt j hpos
    have hle := Nat.mod_le j responders.length
    omega

/-- The last report of fifty instances of three responders. -/
theorem call_iff_three : ∃ frame,
    (new 7 (List.replicate 3 .zero) 4 10000 42).call 149 = some frame ∧
      OnSchedule (new 7 (List.replicate 3 .zero) 4 10000 42) 149 frame :=
  (call_iff 7 (List.replicate 3 .zero) 4 10000 42 149 (by decide)).mpr
    ⟨.inr (by decide), by decide +kernel⟩

/-- The thirty-first of 31 responders is not reported. -/
theorem not_call_thirty_one : ¬ ∃ frame,
    (new 7 (List.replicate 31 .zero) 4 10000 42).call 30 = some frame ∧
      OnSchedule (new 7 (List.replicate 31 .zero) 4 10000 42) 30 frame := by
  rintro ⟨frame, hcall, -⟩
  have hnone : ((new 7 (List.replicate 31 .zero) 4 10000 42).call 30).isSome = false := by
    decide +kernel
  rw [hcall] at hnone
  cases hnone

end SyntheticBf

end EspCsi.Wire
